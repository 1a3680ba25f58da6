import Geobench.Library.Tensors
import Mathlib.Algebra.Order.Field.Rat
import Mathlib.Data.List.Dedup

/-!
# InfoNCE over the groups of a batch

`batchedLoss` builds the logits of all groups as matrices, `loopLoss` those of one group after the
other. `infonceLoss` chooses the first as soon as the groups have one size.

A row of logits is described by its columns (`columns`): every column is a query or a document of
some group, and `Excluded` says which of them a row leaves out. **`pathsAgree_iff`**: both paths
build these rows and have one loss, where the batch is not used as negatives or an embedding has
at least two entries. `squeeze(1)` turns a matrix of embeddings with one entry to a vector, of
which the batched path cannot take columns.
-/

set_option autoImplicit false
set_option linter.unusedSectionVars false

namespace Geobench.Loss

open Library

variable {R E L : Type} {dimension : ℕ}

/-! ## The losses -/

/-- The rows of a sample: its query, its positive and its negatives. -/
structure Group (R : Type) (dimension : ℕ) where
  query : Vector R dimension
  positive : Vector R dimension
  negatives : List (Vector R dimension)

/-- `tensor[1:]` -/
def Group.docs (group : Group R dimension) : List (Vector R dimension) :=
  group.positive :: group.negatives

/-- `tensor.size(0)` -/
def Group.size (group : Group R dimension) : ℕ := group.docs.length + 1

/-- The environment variables of the loss. -/
structure InfonceSettings (R : Type) where
  temperature : R
  useBatch : Bool
  maskFakeNegative : Bool
  fakeNegMargin : R
  includeQq : Bool
  includeDd : Bool

/-- What is left of `CrossEntropyLoss`: an entry over the temperature, the cross entropy of a row
with its target, and a sum of losses over their number. -/
structure CrossEntropy (R E L : Type) where
  scale : WithBot R → R → E
  loss : List E → ℕ → L
  average : L → ℕ → L
  average_one : ∀ loss, average loss 1 = loss

/-- `CrossEntropyLoss()(logits / temperature, targets)` -/
def CrossEntropy.mean [AddMonoid L] (ce : CrossEntropy R E L) (temperature : R)
    (logits : List (List (WithBot R))) (targets : List ℕ) : L :=
  ce.average (List.zipWith (fun row target =>
    ce.loss (row.map (ce.scale · temperature)) target) logits targets).sum logits.length

section Paths

variable [Semiring R] [LinearOrder R]

/-- The similarity of two embeddings. -/
def similarity (left right : Vector R dimension) : R := Tensor.dot left.toList right.toList

/-! ### The batched path -/

/-- `sentences.size(1)` of the stacked groups, which need one size -/
def stackedSize : List (Group R dimension) → Option ℕ
  | [] => none
  | group :: rest => if ∀ other ∈ rest, other.size = group.size then some group.size else none

/-- `docs_all`. A shape with `-1` needs another size that is not zero. -/
def docsAll (groups : List (Group R dimension)) : Option (Tensor R) :=
  if dimension = 0 then none
  else some (.matrix dimension ((groups.flatMap Group.docs).map Vector.toList))

def queries (groups : List (Group R dimension)) : Tensor R :=
  .squeeze dimension (groups.map fun group => group.query.toList)

def posDocs (groups : List (Group R dimension)) : Tensor R :=
  .squeeze dimension (groups.map fun group => group.positive.toList)

/-- `qq_matrix`, where it is included -/
def qqBlocks (settings : InfonceSettings R) (groups : List (Group R dimension)) :
    Option (List (Tensor (WithBot R))) :=
  if settings.includeQq then do
    let qqMatrix ← (queries groups).matmulT (queries groups)
    some [← qqMatrix.setEach id ⊥]
  else some []

/-- `dd_matrix`, where it is included -/
def ddBlocks (settings : InfonceSettings R) (block : ℕ) (groups : List (Group R dimension)) :
    Option (List (Tensor (WithBot R))) :=
  if settings.includeDd then do
    let ddMatrix ← (posDocs groups).matmulT (← docsAll groups)
    some [← if 0 < block then ddMatrix.setEach (· * block) ⊥ else some ddMatrix]
  else some []

/-- The logits before the temperature, with the batch as negatives. -/
def similarityMatrix (settings : InfonceSettings R) (block : ℕ)
    (groups : List (Group R dimension)) : Option (List (List (WithBot R))) := do
  let qdMatrix ← (queries groups).matmulT (← docsAll groups)
  let qq ← qqBlocks settings groups
  let dd ← ddBlocks settings block groups
  if settings.maskFakeNegative then do
    let posScores ← qdMatrix.pick (· * block)
    let thresholds := posScores.map (· + (settings.fakeNegMargin : WithBot R))
    let qdBlock ← qdMatrix.maskAbove thresholds
    let qqBlock ← qq.mapM (Tensor.maskAbove thresholds)
    Tensor.catColumns (qdBlock :: qqBlock ++ dd)
  else Tensor.catColumns (qdMatrix :: qq ++ dd)

/-- The logits of the batched path. -/
def batchedRows (settings : InfonceSettings R) (groups : List (Group R dimension)) :
    Option (List (List (WithBot R))) := do
  let size ← stackedSize groups
  if settings.useBatch then similarityMatrix settings (size - 1) groups
  else some (groups.map fun group => group.docs.map fun doc => (similarity group.query doc : R))

def batchedTargets (settings : InfonceSettings R) (size count : ℕ) : List ℕ :=
  if settings.useBatch then (List.range count).map (· * (size - 1)) else List.replicate count 0

def batchedLoss [AddMonoid L] (ce : CrossEntropy R E L) (settings : InfonceSettings R)
    (groups : List (Group R dimension)) : Option L := do
  let size ← stackedSize groups
  let logits ← batchedRows settings groups
  some (ce.mean settings.temperature logits (batchedTargets settings size groups.length))

/-! ### The loop -/

/-- The logits of the group at `idx`, whose documents are the ones from `length` on. -/
def loopRow (settings : InfonceSettings R) (groups : List (Group R dimension))
    (idx length : ℕ) (group : Group R dimension) : Option (List (WithBot R)) := do
  if settings.useBatch then do
    let sentences := groups.flatMap Group.docs
    let qdVec := sentences.map fun doc => ((similarity group.query doc : R) : WithBot R)
    let threshold := (← qdVec[length]?) + (settings.fakeNegMargin : WithBot R)
    let masked := fun row : List (WithBot R) =>
      if settings.maskFakeNegative then Tensor.maskRow threshold row else row
    let qqVec := (groups.map fun other =>
      ((similarity group.query other.query : R) : WithBot R)).set idx ⊥
    let ddVec := (sentences.map fun doc =>
      ((similarity group.positive doc : R) : WithBot R)).set length ⊥
    some (masked qdVec ++ (if settings.includeQq then masked qqVec else []) ++
      if settings.includeDd then ddVec else [])
  else some (group.docs.map fun doc => (similarity group.query doc : R))

/-- The target of a group in its row. -/
def loopTarget (settings : InfonceSettings R) (length : ℕ) : ℕ :=
  if settings.useBatch then length else 0

/-- The loop over the groups from `idx` on, with the sum of the losses and the number of the
documents so far. -/
def loopFrom [AddMonoid L] (ce : CrossEntropy R E L) (settings : InfonceSettings R)
    (groups : List (Group R dimension)) : (idx length : ℕ) → (loss : L) →
    List (Group R dimension) → Option L
  | _, _, loss, [] => some loss
  | idx, length, loss, group :: rest => do
      let row ← loopRow settings groups idx length group
      let own := ce.mean settings.temperature [row] [loopTarget settings length]
      loopFrom ce settings groups (idx + 1) (length + group.docs.length) (loss + own) rest

def loopLoss [AddMonoid L] (ce : CrossEntropy R E L) (settings : InfonceSettings R)
    (groups : List (Group R dimension)) : Option L := do
  let loss ← loopFrom ce settings groups 0 0 0 groups
  if groups = [] then none else some (ce.average loss groups.length)

/-! ### The choice -/

/-- `can_batched` -/
def canBatched (hardNegatives : Option ℕ) (groups : List (Group R dimension)) : Bool :=
  hardNegatives.isSome || ((groups.map Group.size).dedup.length == 1)

/-- `InfonceLoss.__call__` of the groups -/
def infonceLoss [AddMonoid L] (ce : CrossEntropy R E L) (settings : InfonceSettings R)
    (hardNegatives : Option ℕ) (groups : List (Group R dimension)) : Option L :=
  if canBatched hardNegatives groups then batchedLoss ce settings groups
  else loopLoss ce settings groups

/-! ## The columns of a row -/

/-- What a column compares: the query of the row with a document, the query with a query, or the
positive with a document. -/
inductive Part where
  | queryDoc
  | queryQuery
  | docDoc
deriving DecidableEq

/-- A column of the logits: an embedding of the group at a position, and its place among the
documents of the group. -/
structure Column (R : Type) (dimension : ℕ) where
  part : Part
  group : ℕ
  place : ℕ
  embedding : Vector R dimension

/-- The documents of the groups, the first of which is at a position. -/
def docColumns (part : Part) (start : ℕ) (groups : List (Group R dimension)) :
    List (Column R dimension) :=
  (groups.zipIdx start).flatMap fun (group, index) =>
    group.docs.zipIdx.map fun (doc, place) => ⟨part, index, place, doc⟩

def queryColumns (groups : List (Group R dimension)) : List (Column R dimension) :=
  groups.mapIdx fun index group => ⟨.queryQuery, index, 0, group.query⟩

/-- The columns of the row of a group. -/
def columns (settings : InfonceSettings R) (groups : List (Group R dimension)) (index : ℕ)
    (group : Group R dimension) : List (Column R dimension) :=
  if settings.useBatch then
    docColumns .queryDoc 0 groups ++
      ((if settings.includeQq then queryColumns groups else []) ++
        if settings.includeDd then docColumns .docDoc 0 groups else [])
  else docColumns .queryDoc index [group]

def Column.score (group : Group R dimension) (column : Column R dimension) : R :=
  similarity (if column.part = .docDoc then group.positive else group.query) column.embedding

/-- A column with a higher score than this may be a fake negative. -/
def threshold (settings : InfonceSettings R) (group : Group R dimension) : R :=
  similarity group.query group.positive + settings.fakeNegMargin

/-- The row of a group leaves out its own query, its own positive in the document-document part,
and with the masks of the batch what is closer to its query than the threshold. -/
def Excluded (settings : InfonceSettings R) (index : ℕ) (group : Group R dimension)
    (column : Column R dimension) : Prop :=
  (column.part = .queryQuery ∧ column.group = index) ∨
    (column.part = .docDoc ∧ column.group = index ∧ column.place = 0) ∨
    (settings.useBatch ∧ settings.maskFakeNegative ∧ column.part ≠ .docDoc ∧
      threshold settings group < column.score group)

instance (settings : InfonceSettings R) (index : ℕ) (group : Group R dimension)
    (column : Column R dimension) : Decidable (Excluded settings index group column) :=
  inferInstanceAs (Decidable (_ ∨ _ ∨ _))

/-- The score of a column that is not excluded. -/
def logit (settings : InfonceSettings R) (index : ℕ) (group : Group R dimension)
    (column : Column R dimension) : WithBot R :=
  if Excluded settings index group column then ⊥ else ((column.score group : R) : WithBot R)

def logitsRow (settings : InfonceSettings R) (groups : List (Group R dimension)) (index : ℕ)
    (group : Group R dimension) : List (WithBot R) :=
  (columns settings groups index group).map (logit settings index group)

/-- Where the documents of the group at a position start. -/
def docsBefore (groups : List (Group R dimension)) (index : ℕ) : ℕ :=
  ((groups.take index).flatMap Group.docs).length

end Paths

/-! ## Documents -/

section Columns

variable {β : Type} (part : Part) (f : Vector R dimension → β)

theorem map_docColumns_cons (start : ℕ) (group : Group R dimension)
    (rest : List (Group R dimension)) (g : Column R dimension → β) :
    (docColumns part start (group :: rest)).map g =
      (group.docs.zipIdx.map fun item => g ⟨part, start, item.2, item.1⟩) ++
        (docColumns part (start + 1) rest).map g := by
  rw [docColumns, List.zipIdx_cons, List.flatMap_cons, List.map_append, List.map_map]
  rfl

theorem map_fst_zipIdx (docs : List (Vector R dimension)) (place : ℕ) :
    ((docs.zipIdx place).map fun item => f item.1) = docs.map f := by
  rw [show (fun item : Vector R dimension × ℕ => f item.1) = f ∘ Prod.fst from rfl,
    ← List.map_map, List.zipIdx_map_fst]

/-- The columns of the documents carry the documents. -/
theorem map_docColumns (start : ℕ) (groups : List (Group R dimension)) :
    (docColumns part start groups).map (fun column => f column.embedding) =
      (groups.flatMap Group.docs).map f := by
  induction groups generalizing start with
  | nil => rfl
  | cons group rest ih =>
    rw [map_docColumns_cons, List.flatMap_cons, List.map_append, ih, map_fst_zipIdx]

theorem of_mem_docColumns {start : ℕ} {groups : List (Group R dimension)}
    {column : Column R dimension} (isColumn : column ∈ docColumns part start groups) :
    column.part = part ∧ start ≤ column.group := by
  obtain ⟨⟨group, index⟩, isGroup, isDoc⟩ := List.mem_flatMap.mp isColumn
  obtain ⟨⟨doc, place⟩, -, rfl⟩ := List.mem_map.mp isDoc
  exact ⟨rfl, List.le_snd_of_mem_zipIdx isGroup⟩

/-- The documents of a group start with its positive. The induction is on the groups. -/
theorem set_docsBefore (left : β) {groups : List (Group R dimension)} {index : ℕ}
    {group : Group R dimension} (isGroup : groups[index]? = some group) (start : ℕ) :
    ((groups.flatMap Group.docs).map f).set (docsBefore groups index) left =
      (docColumns part start groups).map fun column =>
        if column.group = start + index ∧ column.place = 0 then left else f column.embedding := by
  induction groups generalizing index start with
  | nil => cases isGroup
  | cons first rest ih =>
    rw [map_docColumns_cons, List.flatMap_cons, List.map_append]
    cases index with
    | zero =>
      have negatives : ((first.negatives.zipIdx 1).map fun item =>
          if start = start + 0 ∧ item.2 = 0 then left else f item.1) =
            first.negatives.map f := by
        rw [← map_fst_zipIdx f first.negatives 1]
        refine List.map_congr_left fun item isItem => if_neg fun both => ?_
        have := List.le_snd_of_mem_zipIdx isItem
        omega
      have later : ((docColumns part (start + 1) rest).map fun column =>
          if column.group = start + 0 ∧ column.place = 0 then left
          else f column.embedding) = (rest.flatMap Group.docs).map f := by
        rw [← map_docColumns part f (start + 1) rest]
        refine List.map_congr_left fun column isColumn => if_neg fun both => ?_
        have := (of_mem_docColumns part isColumn).2
        omega
      rw [later, Group.docs, List.zipIdx_cons, List.map_cons (l := first.negatives.zipIdx 1)]
      rw [negatives, if_pos ⟨rfl, rfl⟩]
      rfl
    | succ index =>
      have own : (first.docs.zipIdx.map fun item =>
          if start = start + (index + 1) ∧ item.2 = 0 then left else f item.1) =
            first.docs.map f := by
        rw [← map_fst_zipIdx f first.docs 0]
        refine List.map_congr_left fun item _ => if_neg fun both => ?_
        omega
      have before : docsBefore (first :: rest) (index + 1) =
          (first.docs.map f).length + docsBefore rest index := by
        rw [docsBefore, List.take_succ_cons, List.flatMap_cons, List.length_append,
          List.length_map, docsBefore]
      have place : start + (index + 1) = start + 1 + index := by omega
      rw [own, before, place, ← ih isGroup (start + 1), List.set_append_right _ _ (by omega),
        Nat.add_sub_cancel_left]

/-- The document where those of a group start is its positive. -/
theorem getElem?_docsBefore {groups : List (Group R dimension)} {index : ℕ}
    {group : Group R dimension} (isGroup : groups[index]? = some group) :
    (groups.flatMap Group.docs)[docsBefore groups index]? = some group.positive := by
  obtain ⟨inRange, rfl⟩ := List.getElem?_eq_some_iff.mp isGroup
  have split : groups.flatMap Group.docs = (groups.take index).flatMap Group.docs ++
      (groups[index].docs ++ (groups.drop (index + 1)).flatMap Group.docs) := by
    rw [← List.flatMap_cons, ← List.flatMap_append, List.getElem_cons_drop, List.take_append_drop]
  rw [split, docsBefore, List.getElem?_append_right (Nat.le_refl _), Nat.sub_self]
  rfl

end Columns

/-! ## Rows -/

section Rows

variable [Semiring R] [LinearOrder R] {settings : InfonceSettings R}
  {groups : List (Group R dimension)} {index : ℕ} {group : Group R dimension}

/-- The masks of the fake negatives, where they are asked for. -/
def maskFakes (settings : InfonceSettings R) (group : Group R dimension)
    (row : List (WithBot R)) : List (WithBot R) :=
  if settings.maskFakeNegative then
    Tensor.maskRow ((threshold settings group : R) : WithBot R) row
  else row

/-- The row of a group as both paths put it together. -/
def joinedRow (settings : InfonceSettings R) (groups : List (Group R dimension)) (index : ℕ)
    (group : Group R dimension) : List (WithBot R) :=
  maskFakes settings group ((groups.flatMap Group.docs).map fun doc =>
      ((similarity group.query doc : R) : WithBot R)) ++
    ((if settings.includeQq then
        maskFakes settings group ((groups.map fun other =>
          ((similarity group.query other.query : R) : WithBot R)).set index ⊥)
      else []) ++
      if settings.includeDd then
        ((groups.flatMap Group.docs).map fun doc =>
          ((similarity group.positive doc : R) : WithBot R)).set (docsBefore groups index) ⊥
      else [])

theorem mask_queryDocs (useBatch : settings.useBatch = true) :
    maskFakes settings group ((groups.flatMap Group.docs).map fun doc =>
        ((similarity group.query doc : R) : WithBot R)) =
      (docColumns .queryDoc 0 groups).map (logit settings index group) := by
  rw [← map_docColumns .queryDoc _ 0 groups, maskFakes, Tensor.maskRow]
  split
  · rename_i masks
    rw [List.map_map]
    refine List.map_congr_left fun column isColumn => ?_
    have isPart := (of_mem_docColumns .queryDoc isColumn).1
    simp [logit, Excluded, Column.score, isPart, useBatch, masks]
  · rename_i keeps
    refine List.map_congr_left fun column isColumn => ?_
    have isPart := (of_mem_docColumns .queryDoc isColumn).1
    simp [logit, Excluded, Column.score, isPart, keeps]

theorem mask_queries (useBatch : settings.useBatch = true) :
    maskFakes settings group ((groups.map fun other =>
        ((similarity group.query other.query : R) : WithBot R)).set index ⊥) =
      (queryColumns groups).map (logit settings index group) := by
  have masked : ∀ row : List (WithBot R), maskFakes settings group row =
      row.map fun entry => if settings.maskFakeNegative ∧
        ((threshold settings group : R) : WithBot R) < entry then ⊥ else entry := by
    intro row
    rw [maskFakes, Tensor.maskRow]
    split
    · rename_i masks
      simp [masks]
    · rename_i keeps
      simp [keeps]
  apply List.ext_getElem?
  intro place
  rw [masked, queryColumns, List.getElem?_map, List.getElem?_set, List.getElem?_map,
    List.getElem?_map, List.getElem?_mapIdx, List.length_map]
  by_cases inRange : place < groups.length
  · rw [List.getElem?_eq_getElem inRange]
    by_cases own : index = place
    · subst own
      simp [logit, Excluded, inRange]
    · have other : ¬ place = index := fun same => own same.symm
      simp [logit, Excluded, Column.score, own, other, useBatch]
  · rw [List.getElem?_eq_none (Nat.le_of_not_lt inRange)]
    by_cases own : index = place
    · subst own
      simp [inRange]
    · simp [own]

theorem set_docDocs (isGroup : groups[index]? = some group) :
    ((groups.flatMap Group.docs).map fun doc =>
        ((similarity group.positive doc : R) : WithBot R)).set (docsBefore groups index) ⊥ =
      (docColumns .docDoc 0 groups).map (logit settings index group) := by
  rw [set_docsBefore .docDoc _ ⊥ isGroup 0]
  refine List.map_congr_left fun column isColumn => ?_
  have isPart := (of_mem_docColumns .docDoc isColumn).1
  simp [logit, Excluded, Column.score, isPart]

/-- A row that is put together excludes exactly the columns that are excluded. -/
theorem joinedRow_eq (useBatch : settings.useBatch = true)
    (isGroup : groups[index]? = some group) :
    joinedRow settings groups index group = logitsRow settings groups index group := by
  rw [logitsRow, columns, if_pos useBatch, joinedRow, mask_queryDocs useBatch,
    mask_queries useBatch, set_docDocs isGroup, List.map_append, List.map_append]
  cases settings.includeQq <;> cases settings.includeDd <;> rfl

/-- Without the batch as negatives nothing is excluded. -/
theorem logitsRow_of_own (ownOnly : settings.useBatch = false) :
    logitsRow settings groups index group =
      group.docs.map fun doc => ((similarity group.query doc : R) : WithBot R) := by
  have one : group.docs = [group].flatMap Group.docs := by simp
  rw [logitsRow, columns, if_neg (by simp [ownOnly]), one,
    ← map_docColumns .queryDoc _ index [group]]
  refine List.map_congr_left fun column isColumn => ?_
  have isPart := (of_mem_docColumns .queryDoc isColumn).1
  simp [logit, Excluded, Column.score, isPart, ownOnly]

end Rows

/-! ## The paths -/

section Loop

variable [Semiring R] [LinearOrder R] [AddMonoid L] (ce : CrossEntropy R E L)
  (settings : InfonceSettings R) {groups : List (Group R dimension)}

theorem loopRow_eq {index : ℕ} {group : Group R dimension}
    (isGroup : groups[index]? = some group) :
    loopRow settings groups index (docsBefore groups index) group =
      some (logitsRow settings groups index group) := by
  cases useBatch : settings.useBatch with
  | false =>
    rw [loopRow, useBatch, logitsRow_of_own useBatch]
    rfl
  | true =>
    have positive : ((groups.flatMap Group.docs).map fun doc =>
        ((similarity group.query doc : R) : WithBot R))[docsBefore groups index]? =
          some ((similarity group.query group.positive : R) : WithBot R) := by
      rw [List.getElem?_map, getElem?_docsBefore isGroup]
      rfl
    rw [← joinedRow_eq useBatch isGroup, loopRow, useBatch, if_pos rfl]
    dsimp only
    rw [positive, joinedRow, ← List.append_assoc]
    rfl

def groupLoss (groups : List (Group R dimension)) (index : ℕ) (group : Group R dimension) : L :=
  ce.loss ((logitsRow settings groups index group).map (ce.scale · settings.temperature))
    (loopTarget settings (docsBefore groups index))

def rowsLoss (groups : List (Group R dimension)) : L :=
  ce.average (groups.mapIdx (groupLoss ce settings groups)).sum groups.length

/-- The induction is on the groups that are left. -/
theorem loopFrom_eq {left : List (Group R dimension)} {index : ℕ}
    (isLeft : groups.drop index = left) (loss : L) :
    loopFrom ce settings groups index (docsBefore groups index) loss left =
      some (loss + (left.mapIdx fun place => groupLoss ce settings groups (index + place)).sum) := by
  induction left generalizing index loss with
  | nil => rw [loopFrom, List.mapIdx_nil, List.sum_nil, add_zero]
  | cons group rest ih =>
    have isGroup : groups[index]? = some group := by
      rw [← List.head?_drop, isLeft]
      rfl
    have isRest : groups.drop (index + 1) = rest := by
      rw [← List.tail_drop, isLeft]
      rfl
    have next : docsBefore groups index + group.docs.length = docsBefore groups (index + 1) := by
      rw [docsBefore, docsBefore, List.take_add_one, isGroup, List.flatMap_append,
        List.length_append]
      simp
    have own : ce.mean settings.temperature [logitsRow settings groups index group]
        [loopTarget settings (docsBefore groups index)] =
          groupLoss ce settings groups index group := by
      rw [CrossEntropy.mean, List.zipWith_cons_cons, List.zipWith_nil_left, List.sum_singleton]
      exact ce.average_one _
    rw [loopFrom, loopRow_eq settings isGroup, Option.bind_eq_bind, Option.bind_some]
    simp only
    rw [own, next, ih isRest, List.mapIdx_cons, List.sum_cons, add_assoc]
    simp only [Nat.add_right_comm index 1, Nat.add_assoc, Nat.add_zero]

theorem loopLoss_eq (someGroup : groups ≠ []) :
    loopLoss ce settings groups = some (rowsLoss ce settings groups) := by
  have whole : loopFrom ce settings groups 0 0 0 groups = _ :=
    loopFrom_eq ce settings (List.drop_zero) 0
  rw [loopLoss, whole, zero_add, Option.bind_eq_bind, Option.bind_some, if_neg someGroup]
  simp only [Nat.zero_add]
  rfl

end Loop

section Batched

variable [Semiring R] [LinearOrder R] {settings : InfonceSettings R}
  {groups : List (Group R dimension)} {size : ℕ}

theorem of_stackedSize (isSize : stackedSize groups = some size) :
    groups ≠ [] ∧ ∀ group ∈ groups, group.size = size := by
  cases groups with
  | nil => cases isSize
  | cons group rest =>
    rw [stackedSize] at isSize
    split at isSize
    · rename_i same
      obtain rfl := Option.some.inj isSize
      exact ⟨List.cons_ne_nil _ _, List.forall_mem_cons.mpr ⟨rfl, same⟩⟩
    · cases isSize

theorem docsBefore_of_size (oneSize : ∀ group ∈ groups, group.size = size) {index : ℕ}
    (inRange : index ≤ groups.length) : docsBefore groups index = index * (size - 1) := by
  have each : ∀ group ∈ groups.take index, group.docs.length = size - 1 := by
    intro group isGroup
    rw [← oneSize group (List.mem_of_mem_take isGroup), Group.size, Nat.add_sub_cancel]
  rw [docsBefore, List.length_flatMap, List.map_congr_left each, List.map_const',
    List.sum_replicate_nat, List.length_take, Nat.min_eq_left inRange]

def qdRow (groups : List (Group R dimension)) (group : Group R dimension) : List (WithBot R) :=
  (groups.flatMap Group.docs).map fun doc => ((similarity group.query doc : R) : WithBot R)

def qqRow (groups : List (Group R dimension)) (index : ℕ) (group : Group R dimension) :
    List (WithBot R) :=
  (groups.map fun other => ((similarity group.query other.query : R) : WithBot R)).set index ⊥

def ddRow (groups : List (Group R dimension)) (block index : ℕ) (group : Group R dimension) :
    List (WithBot R) :=
  ((groups.flatMap Group.docs).map fun doc =>
    ((similarity group.positive doc : R) : WithBot R)).set (index * block) ⊥

variable (wide : 1 < dimension)

include wide

theorem docsAll_of_wide : docsAll groups =
    some (.matrix dimension ((groups.flatMap Group.docs).map Vector.toList)) := by
  rw [docsAll, if_neg (by omega)]

theorem queries_of_wide : queries groups =
    .matrix dimension (groups.map fun group => group.query.toList) := by
  rw [queries, Tensor.squeeze, if_neg (by omega)]

theorem qqBlocks_eq : qqBlocks settings groups =
    some ((if settings.includeQq then [(groups.length, qqRow groups)] else []).map
      fun block => Tensor.byRow block.1 block.2 groups) := by
  rw [qqBlocks, queries_of_wide wide, Tensor.matmulT_byRow]
  cases settings.includeQq with
  | false => rfl
  | true =>
    simp only [if_pos, Option.bind_eq_bind, Option.bind_some, Tensor.setEach_byRow]
    rfl

theorem ddBlocks_eq {block : ℕ} (someDoc : 0 < block) : ddBlocks settings block groups =
    some ((if settings.includeDd then
        [((groups.flatMap Group.docs).length, ddRow groups block)] else []).map
      fun block => Tensor.byRow block.1 block.2 groups) := by
  rw [ddBlocks, docsAll_of_wide wide, posDocs, Tensor.squeeze, if_neg (by omega : dimension ≠ 1)]
  simp only [Option.bind_eq_bind, Option.bind_some, Tensor.matmulT_byRow, if_pos someDoc,
    Tensor.setEach_byRow]
  cases settings.includeDd <;> rfl

/-- The matrices have the rows of the groups. -/
theorem similarityMatrix_eq (useBatch : settings.useBatch = true)
    (isSize : stackedSize groups = some size) :
    similarityMatrix settings (size - 1) groups =
      some (groups.mapIdx (logitsRow settings groups)) := by
  obtain ⟨someGroup, oneSize⟩ := of_stackedSize isSize
  have someDoc : 0 < size - 1 := by
    obtain ⟨group, isGroup⟩ := List.exists_mem_of_ne_nil groups someGroup
    rw [← oneSize group isGroup, Group.size, Nat.add_sub_cancel]
    exact Nat.succ_pos _
  have qd : (queries groups).matmulT
      (.matrix dimension ((groups.flatMap Group.docs).map Vector.toList)) =
        some (.byRow (groups.flatMap Group.docs).length (fun _ => qdRow groups) groups) := by
    rw [queries_of_wide wide, Tensor.matmulT_byRow]
    rfl
  have rows : groups.mapIdx (logitsRow settings groups) = groups.mapIdx fun index group =>
      maskFakes settings group (qdRow groups group) ++
        ((if settings.includeQq then maskFakes settings group (qqRow groups index group) else []) ++
          if settings.includeDd then ddRow groups (size - 1) index group else []) := by
    refine List.mapIdx_eq_mapIdx_iff.mpr fun index inRange => ?_
    rw [← joinedRow_eq useBatch (List.getElem?_eq_getElem inRange), joinedRow, ddRow,
      docsBefore_of_size oneSize (Nat.le_of_lt inRange)]
    rfl
  rw [similarityMatrix, docsAll_of_wide wide, qqBlocks_eq wide, ddBlocks_eq wide someDoc]
  simp only [Option.bind_eq_bind, Option.bind_some, qd]
  cases masks : settings.maskFakeNegative with
  | false =>
    rw [if_neg Bool.false_ne_true, List.cons_append, ← List.map_append, Tensor.catColumns_byRow,
      rows]
    simp only [maskFakes, masks]
    cases settings.includeQq <;> cases settings.includeDd <;> simp
  | true =>
    have positives : (Tensor.byRow (groups.flatMap Group.docs).length
        (fun _ => qdRow groups) groups).pick (· * (size - 1)) =
          some (groups.mapIdx fun _ group =>
            ((similarity group.query group.positive : R) : WithBot R)) := by
      refine Tensor.pick_byRow _ _ groups fun index group isGroup => ?_
      have inRange := (List.getElem?_eq_some_iff.mp isGroup).1
      rw [← docsBefore_of_size oneSize (Nat.le_of_lt inRange), qdRow, List.getElem?_map,
        getElem?_docsBefore isGroup]
      rfl
    have thresholds : (groups.mapIdx fun _ group =>
        ((similarity group.query group.positive : R) : WithBot R)).map
          (· + (settings.fakeNegMargin : WithBot R)) =
        groups.mapIdx fun _ group => ((threshold settings group : R) : WithBot R) := by
      rw [Tensor.map_eq_mapIdx, List.mapIdx_mapIdx]
      rfl
    have queriesMasked : ((if settings.includeQq then [(groups.length, qqRow groups)] else []).map
        fun block => Tensor.byRow block.1 block.2 groups).mapM (Tensor.maskAbove
          (groups.mapIdx fun _ group => ((threshold settings group : R) : WithBot R))) =
        some ((if settings.includeQq then [(groups.length, fun index group =>
          Tensor.maskRow ((threshold settings group : R) : WithBot R)
            (qqRow groups index group))] else []).map
          fun block => Tensor.byRow block.1 block.2 groups) := by
      cases settings.includeQq with
      | false => rfl
      | true =>
        simp only [if_pos, List.map_cons, List.map_nil, List.mapM_cons, List.mapM_nil,
          Tensor.maskAbove_byRow]
        rfl
    rw [if_pos rfl, positives, Option.bind_some, thresholds, Tensor.maskAbove_byRow,
      Option.bind_some, queriesMasked, Option.bind_some, List.cons_append, ← List.map_append,
      Tensor.catColumns_byRow, rows]
    simp only [maskFakes, masks]
    cases settings.includeQq <;> cases settings.includeDd <;> simp

end Batched

/-! ## The agreement -/

section Agreement

variable [Semiring R] [LinearOrder R] {settings : InfonceSettings R}
  {groups : List (Group R dimension)} {size : ℕ}

/-- The matrix of embeddings with one entry is a vector, of which there are no columns, and one
without entries has no shape. -/
theorem similarityMatrix_of_narrow (narrow : dimension ≤ 1) (block : ℕ) :
    similarityMatrix settings block groups = none := by
  by_contra isSome
  obtain ⟨rows, isRows⟩ := Option.ne_none_iff_exists'.mp isSome
  obtain ⟨docs, isDocs, isRows⟩ := Option.bind_eq_some_iff.mp isRows
  rw [docsAll] at isDocs
  split at isDocs
  · cases isDocs
  · rename_i someEntry
    obtain rfl : dimension = 1 := by omega
    obtain rfl := Option.some.inj isDocs
    obtain ⟨qdMatrix, isMatrix, isRows⟩ := Option.bind_eq_some_iff.mp isRows
    rw [queries, Tensor.squeeze, if_pos rfl] at isMatrix
    obtain ⟨entries, rfl⟩ := Tensor.matmulT_vector isMatrix
    obtain ⟨qq, -, isRows⟩ := Option.bind_eq_some_iff.mp isRows
    obtain ⟨dd, -, isRows⟩ := Option.bind_eq_some_iff.mp isRows
    split at isRows
    · cases isRows
    · rw [List.cons_append, Tensor.catColumns_vector] at isRows
      cases isRows

theorem batchedRows_eq (isSize : stackedSize groups = some size)
    (wide : settings.useBatch = true → 1 < dimension) :
    batchedRows settings groups = some (groups.mapIdx (logitsRow settings groups)) := by
  rw [batchedRows, isSize, Option.bind_eq_bind, Option.bind_some]
  cases useBatch : settings.useBatch with
  | false =>
    rw [if_neg Bool.false_ne_true, Tensor.map_eq_mapIdx]
    refine congrArg some (List.mapIdx_eq_mapIdx_iff.mpr fun index inRange => ?_)
    rw [logitsRow_of_own useBatch]
  | true =>
    rw [if_pos rfl]
    exact similarityMatrix_eq (wide useBatch) useBatch isSize

theorem batchedTargets_eq (isSize : stackedSize groups = some size) :
    batchedTargets settings size groups.length =
      groups.mapIdx fun index _ => loopTarget settings (docsBefore groups index) := by
  have oneSize := (of_stackedSize isSize).2
  apply List.ext_getElem?
  intro index
  rw [List.getElem?_mapIdx, batchedTargets]
  by_cases inRange : index < groups.length
  · rw [List.getElem?_eq_getElem inRange, Option.map_some, loopTarget,
      docsBefore_of_size oneSize (Nat.le_of_lt inRange)]
    cases settings.useBatch <;> simp [inRange]
  · rw [List.getElem?_eq_none (Nat.le_of_not_lt inRange)]
    cases settings.useBatch <;> simp [Nat.le_of_not_lt inRange]

theorem batchedLoss_eq [AddMonoid L] (ce : CrossEntropy R E L)
    (isSize : stackedSize groups = some size)
    (wide : settings.useBatch = true → 1 < dimension) :
    batchedLoss ce settings groups = some (rowsLoss ce settings groups) := by
  rw [batchedLoss, isSize, batchedRows_eq isSize wide, Option.bind_eq_bind, Option.bind_some,
    Option.bind_eq_bind, Option.bind_some, CrossEntropy.mean, batchedTargets_eq isSize,
    Tensor.zipWith_mapIdx, List.length_mapIdx]
  rfl

def OneSize (groups : List (Group R dimension)) : Prop :=
  ∀ first ∈ groups, ∀ second ∈ groups, first.size = second.size

theorem exists_stackedSize (someGroup : groups ≠ []) (oneSize : OneSize groups) :
    ∃ size, stackedSize groups = some size := by
  cases groups with
  | nil => exact absurd rfl someGroup
  | cons group rest =>
    refine ⟨group.size, if_pos fun other isOther => ?_⟩
    exact oneSize other (List.mem_cons_of_mem _ isOther) group List.mem_cons_self

/-- Groups of one size go through the batched path. -/
theorem infonceLoss_of_oneSize [AddMonoid L] (ce : CrossEntropy R E L)
    (hardNegatives : Option ℕ) (someGroup : groups ≠ []) (oneSize : OneSize groups) :
    infonceLoss ce settings hardNegatives groups = batchedLoss ce settings groups := by
  have sizes : (groups.map Group.size).dedup.length = 1 := by
    cases groups with
    | nil => exact absurd rfl someGroup
    | cons group rest =>
      have all : (group :: rest).map Group.size =
          List.replicate (rest.length + 1) group.size := by
        refine List.eq_replicate_iff.mpr ⟨by simp, fun size isSize => ?_⟩
        obtain ⟨other, isOther, rfl⟩ := List.mem_map.mp isSize
        exact oneSize other isOther group List.mem_cons_self
      rw [all, List.replicate_dedup (Nat.succ_ne_zero _)]
      rfl
  rw [infonceLoss, canBatched, sizes, if_pos (by simp)]

/-- The paths compute one loss, from rows in which a group excludes exactly its own query, its own
positive in the document-document part and the masked entries. -/
structure PathsAgree [AddMonoid L] (ce : CrossEntropy R E L) (settings : InfonceSettings R)
    (groups : List (Group R dimension)) : Prop where
  loss : batchedLoss ce settings groups = loopLoss ce settings groups
  batched : batchedRows settings groups = some (groups.mapIdx (logitsRow settings groups))
  loop : ∀ index group, groups[index]? = some group →
    loopRow settings groups index (docsBefore groups index) group =
      some (logitsRow settings groups index group)

/-- **The batched path agrees with the loop if and only if the batch is not used as negatives or
an embedding has at least two entries.** -/
theorem pathsAgree_iff [AddMonoid L] (ce : CrossEntropy R E L) (someGroup : groups ≠ [])
    (oneSize : OneSize groups) :
    PathsAgree ce settings groups ↔ (settings.useBatch = true → 1 < dimension) := by
  obtain ⟨size, isSize⟩ := exists_stackedSize someGroup oneSize
  constructor
  · intro agrees useBatch
    by_contra narrow
    have isRows := agrees.batched
    rw [batchedRows, isSize, Option.bind_eq_bind, Option.bind_some, if_pos useBatch,
      similarityMatrix_of_narrow (Nat.le_of_not_lt narrow)] at isRows
    cases isRows
  · intro wide
    refine ⟨?_, batchedRows_eq isSize wide, fun index group => loopRow_eq settings⟩
    rw [batchedLoss_eq ce isSize wide, loopLoss_eq ce settings someGroup]

/-- The entries of a row that are left in, less that of the target. -/
def linearCrossEntropy : CrossEntropy ℚ (Option ℚ) ℚ where
  scale entry temperature := entry.map (· / temperature)
  loss row target := (row.map (·.getD 0)).sum - ((row[target]?.getD none).getD 0)
  average loss count := loss / count
  average_one loss := by rw [Nat.cast_one, div_one]

def allFlags : InfonceSettings ℚ where
  temperature := 1 / 10
  useBatch := true
  maskFakeNegative := true
  fakeNegMargin := 1 / 10
  includeQq := true
  includeDd := true

theorem pathsAgree_allFlags :
    PathsAgree linearCrossEntropy allFlags
      [⟨#v[1, 0], #v[1, 0], [#v[0, 1]]⟩, ⟨#v[0, 1], #v[0, 1], [#v[1, 1]]⟩] :=
  (pathsAgree_iff linearCrossEntropy (by decide) (by unfold OneSize; decide)).mpr
    fun _ => by decide

/-- With embeddings of one entry the batched path raises, and the loop has a loss. -/
theorem not_pathsAgree_oneEntry :
    ¬ PathsAgree linearCrossEntropy allFlags [⟨#v[1], #v[1], [#v[0]]⟩] := by
  intro agrees
  have raised : batchedLoss linearCrossEntropy allFlags
      [⟨#v[1], #v[1], [#v[0]]⟩] = none := by decide +kernel
  have computed : (loopLoss linearCrossEntropy allFlags
      [⟨#v[1], #v[1], [#v[0]]⟩]).isSome := by decide +kernel
  rw [← agrees.loss, raised] at computed
  cases computed

end Agreement

end Geobench.Loss
