import Geobench.Library.Records
import Geobench.Library.Splicing

/-!
# Placeholders that are extended

A template gives each image one placeholder and later puts the tokens of the image in its place.
`extendTokens` does this from left to right, in the ids, the labels and the scales of the loss, and
keeps count of how far the later places have moved. A placeholder whose tokens cannot be had is
left as it is.

**`extendTokens_eq`**: this is the replacement of all places at once, and the columns stay equally
long.
-/

namespace Geobench.Template

open Library List

/-- The ids of a sample, with its labels and the scales of its loss, if it has them. -/
structure TokenColumns (K : Type) where
  inputIds : List ℤ
  labels : Option (List ℤ)
  lossScale : Option (List K)

variable {K : Type}

structure TokenColumns.Aligned (columns : TokenColumns K) : Prop where
  labels : ∀ labels ∈ columns.labels, labels.length = columns.inputIds.length
  lossScale : ∀ lossScale ∈ columns.lossScale, lossScale.length = columns.inputIds.length

/-- `_extend_tokens`, for one entry of `replace_idx_list`. `none` are new tokens that raise an
`IndexError`, which is caught, or the `IndexError` of `loss_scale`, which is not. -/
def extendStep (getNewTokens : ℕ → Option (List ℤ)) (state : TokenColumns K × ℤ)
    (replace : ℕ × ℕ) : Option (TokenColumns K × ℤ) :=
  match getNewTokens replace.2 with
  | none => some state
  | some newTokens =>
    let place := replace.1 + state.2
    let labels := state.1.labels.map fun labels =>
      if labels ≠ [] then spliceAt labels place (List.replicate newTokens.length (-100))
      else labels
    let lossScale : Option (Option (List K)) :=
      match state.1.lossScale with
      | none => some none
      | some lossScale =>
        if lossScale ≠ [] then
          (entryAt lossScale place).map fun scale =>
            some (spliceAt lossScale place (List.replicate newTokens.length scale))
        else some (some lossScale)
    lossScale.map fun lossScale =>
      ({ inputIds := spliceAt state.1.inputIds place newTokens
         labels := labels
         lossScale := lossScale }, state.2 + newTokens.length - 1)

def extendTokens (columns : TokenColumns K) (replaceIdxList : List ℕ)
    (getNewTokens : ℕ → Option (List ℤ)) : Option (TokenColumns K) :=
  (replaceIdxList.zipIdx.foldlM (extendStep getNewTokens) (columns, 0)).map Prod.fst

/-! ## All places at once -/

/-- The new tokens for a place, if it is one of the list and they can be had. -/
def newTokensAt (replaceIdxList : List ℕ) (getNewTokens : ℕ → Option (List ℤ)) (place : ℕ) :
    Option (List ℤ) :=
  (valueAt replaceIdxList.zipIdx place).bind getNewTokens

/-- Replace each place by its new tokens. They are not trained on and keep the scale of the
placeholder. -/
def TokenColumns.replaceAll (columns : TokenColumns K) (newTokens : ℕ → Option (List ℤ)) :
    TokenColumns K where
  inputIds := replaceEach (fun place _ => newTokens place) 0 columns.inputIds
  labels := columns.labels.map <| replaceEach (fun place _ =>
    (newTokens place).map fun tokens => List.replicate tokens.length (-100)) 0
  lossScale := columns.lossScale.map <| replaceEach (fun place scale =>
    (newTokens place).map fun tokens => List.replicate tokens.length scale) 0

/-! ## Columns as one list -/

section Items

/-- A token with its label and its scale. -/
structure TokenItem (K : Type) where
  token : ℤ
  label : ℤ
  scale : K

def columnsOf (hasLabels hasScale : Bool) (items : List (TokenItem K)) : TokenColumns K where
  inputIds := items.map TokenItem.token
  labels := if hasLabels then some (items.map TokenItem.label) else none
  lossScale := if hasScale then some (items.map TokenItem.scale) else none

def newItems (item : TokenItem K) (tokens : List ℤ) : List (TokenItem K) :=
  tokens.map fun token => ⟨token, -100, item.scale⟩

variable (item : TokenItem K) (tokens : List ℤ)

@[simp] theorem token_newItems : (newItems item tokens).map TokenItem.token = tokens := by
  rw [newItems, map_map]
  exact map_id tokens

@[simp] theorem label_newItems :
    (newItems item tokens).map TokenItem.label = replicate tokens.length (-100) := by
  rw [newItems, map_map]
  exact map_const

@[simp] theorem scale_newItems :
    (newItems item tokens).map TokenItem.scale = replicate tokens.length item.scale := by
  rw [newItems, map_map]
  exact map_const

variable {α β : Type}

theorem spliceAt_map (f : α → β) (items : List α) (place : ℤ) (new : List α) :
    (spliceAt items place new).map f = spliceAt (items.map f) place (new.map f) := by
  simp only [spliceAt, signedSlice, map_append, map_slice, length_map]

theorem entryAt_map (f : α → β) (items : List α) (place : ℤ) :
    entryAt (items.map f) place = (entryAt items place).map f := by
  rw [entryAt, entryAt, length_map]
  split
  · exact getElem?_map
  · rfl

theorem replaceEach_map (f : α → β) (change : ℕ → α → Option (List α))
    (other : ℕ → β → Option (List β))
    (same : ∀ place item, other place (f item) = (change place item).map (map f)) (start : ℕ)
    (items : List α) :
    replaceEach other start (items.map f) = (replaceEach change start items).map f := by
  induction items generalizing start with
  | nil => rfl
  | cons item rest ih =>
    rw [map_cons, replaceEach_cons, replaceEach_cons, map_append, ih, same]
    cases change start item <;> rfl

variable (getNewTokens : ℕ → Option (List ℤ)) (hasLabels hasScale : Bool)

theorem extendStep_columnsOf {items : List (TokenItem K)} {added : ℤ} {replace : ℕ × ℕ}
    {item : TokenItem K} (isItem : entryAt items (replace.1 + added) = some item) :
    extendStep getNewTokens (columnsOf hasLabels hasScale items, added) replace =
      match getNewTokens replace.2 with
      | none => some (columnsOf hasLabels hasScale items, added)
      | some tokens => some
          (columnsOf hasLabels hasScale (spliceAt items (replace.1 + added) (newItems item tokens)),
            added + tokens.length - 1) := by
  have some : items ≠ [] := by
    rintro rfl
    rw [entryAt] at isItem
    simp at isItem
  rw [extendStep]
  cases getNewTokens replace.2 with
  | none => rfl
  | some tokens =>
    cases hasLabels <;> cases hasScale <;>
      simp [columnsOf, some, entryAt_map, isItem, spliceAt_map]

/-! ## From left to right -/

/-- The new items for a place, when the list of places starts with a number. -/
def itemsAt (getNewTokens : ℕ → Option (List ℤ)) (replaceIdxList : List ℕ) (first place : ℕ)
    (item : TokenItem K) : Option (List (TokenItem K)) :=
  ((valueAt (replaceIdxList.zipIdx first) place).bind getNewTokens).map (newItems item)

theorem itemsAt_cons (idx : ℕ) (rest : List ℕ) (first place : ℕ) (item : TokenItem K) :
    itemsAt getNewTokens (idx :: rest) first place item =
      if place = idx then (getNewTokens first).map (newItems item)
      else itemsAt getNewTokens rest (first + 1) place item := by
  rw [itemsAt, zipIdx_cons, valueAt_cons]
  split <;> rfl

theorem itemsAt_eq_none {getNewTokens : ℕ → Option (List ℤ)} {replaceIdxList : List ℕ}
    {place : ℕ} (absent : place ∉ replaceIdxList) (first : ℕ) (item : TokenItem K) :
    itemsAt getNewTokens replaceIdxList first place item = none := by
  rw [itemsAt, valueAt_eq_none (by rwa [zipIdx_map_fst])]
  rfl

/-- The rest of the places is replaced behind the part that is done. What has been added is how
much longer this part is than what it came from. -/
theorem foldlM_extendStep {replaceIdxList : List ℕ} (increasing : replaceIdxList.Pairwise (· < ·))
    (done rest : List (TokenItem K)) (first start : ℕ)
    (inside : ∀ idx ∈ replaceIdxList, start ≤ idx ∧ idx < start + rest.length) :
    ∃ added, (replaceIdxList.zipIdx first).foldlM (extendStep getNewTokens)
        (columnsOf hasLabels hasScale (done ++ rest), (done.length : ℤ) - start) =
      some (columnsOf hasLabels hasScale
        (done ++ replaceEach (itemsAt getNewTokens replaceIdxList first) start rest), added) := by
  induction replaceIdxList generalizing done rest first start with
  | nil =>
    refine ⟨(done.length : ℤ) - start, ?_⟩
    rw [replaceEach_eq_self fun place _ _ item => itemsAt_eq_none not_mem_nil first item]
    rfl
  | cons idx more ih =>
    obtain ⟨after, before⟩ := inside idx mem_cons_self
    obtain ⟨later, increasing⟩ := pairwise_cons.mp increasing
    -- the rest is what lies before the place, its item, and what follows
    obtain ⟨between, item, following, rfl, length⟩ : ∃ between item following,
        rest = between ++ item :: following ∧ between.length = idx - start := by
      have isIn : idx - start < rest.length := by omega
      refine ⟨rest.take (idx - start), rest[idx - start], rest.drop (idx - start + 1), ?_, ?_⟩
      · rw [← drop_eq_getElem_cons isIn, take_append_drop]
      · rw [length_take]
        omega
    have isPlace : (idx : ℤ) + ((done.length : ℤ) - start) = done.length + between.length := by
      omega
    have isItem := entryAt_append done between following item isPlace
    rw [length_append, length_cons] at inside
    have inRest : ∀ other ∈ more, idx + 1 ≤ other ∧ other < idx + 1 + following.length := by
      intro other isOther
      have order := later other isOther
      have limit := (inside other (mem_cons_of_mem idx isOther)).2
      omega
    -- before the place nothing is replaced, and behind it the places are those of the others
    have kept : replaceEach (itemsAt getNewTokens (idx :: more) first) start between = between := by
      refine replaceEach_eq_self fun place isAfter isBefore item => itemsAt_eq_none ?_ first item
      rw [mem_cons, not_or]
      refine ⟨by omega, fun isLater => ?_⟩
      have order := later place isLater
      omega
    have others : replaceEach (itemsAt getNewTokens (idx :: more) first) (idx + 1) following =
        replaceEach (itemsAt getNewTokens more (first + 1)) (idx + 1) following := by
      refine replaceEach_congr fun place isAfter item => ?_
      rw [itemsAt_cons, if_neg (by omega)]
    have isIdx : start + between.length = idx := by omega
    rw [replaceEach_append, kept, replaceEach_cons, isIdx, others, itemsAt_cons, if_pos rfl,
      zipIdx_cons, foldlM_cons, extendStep_columnsOf getNewTokens hasLabels hasScale
        isItem]
    cases isNew : getNewTokens first with
    | none =>
      obtain ⟨added, isRest⟩ := ih increasing (done ++ between ++ [item]) following
        (first + 1) (idx + 1) inRest
      refine ⟨added, ?_⟩
      have same : (done.length : ℤ) - start =
          (done ++ between ++ [item]).length - (idx + 1 : ℕ) := by
        simp only [length_append, length_singleton]
        omega
      have joined : done ++ (between ++ item :: following) =
          done ++ between ++ [item] ++ following := by simp
      rw [Option.bind_eq_bind, Option.bind_some, same, joined]
      rw [isRest]
      simp
    | some tokens =>
      obtain ⟨added, isRest⟩ := ih increasing (done ++ between ++ newItems item tokens)
        following (first + 1) (idx + 1) inRest
      refine ⟨added, ?_⟩
      have same : (done.length : ℤ) - start + tokens.length - 1 =
          (done ++ between ++ newItems item tokens).length - (idx + 1 : ℕ) := by
        simp only [length_append, newItems, length_map]
        omega
      rw [Option.bind_eq_bind, Option.bind_some, same, spliceAt_append _ _ _ _ _ isPlace, isRest]
      simp

/-! ## The claim -/

theorem exists_column [Zero β] {column : Option (List β)} {length : ℕ}
    (aligned : ∀ values ∈ column, values.length = length) :
    ∃ values, values.length = length ∧ column = if column.isSome then some values else none := by
  cases column with
  | none => exact ⟨replicate length 0, length_replicate, rfl⟩
  | some values => exact ⟨values, aligned values rfl, rfl⟩

/-- Columns that are equally long are those of a list of items. -/
theorem exists_columnsOf [Zero K] {columns : TokenColumns K} (aligned : columns.Aligned) :
    ∃ hasLabels hasScale items, columns = columnsOf hasLabels hasScale items := by
  obtain ⟨labels, labelled, areLabels⟩ := exists_column aligned.labels
  obtain ⟨scales, scaled, areScales⟩ := exists_column aligned.lossScale
  have entries : (labels.zip scales).length = columns.inputIds.length := by
    rw [length_zip, labelled, scaled, Nat.min_self]
  refine ⟨columns.labels.isSome, columns.lossScale.isSome,
    (columns.inputIds.zip (labels.zip scales)).map fun entry =>
      ⟨entry.1, entry.2.1, entry.2.2⟩, ?_⟩
  have tokens : (columns.inputIds.zip (labels.zip scales)).map Prod.fst = columns.inputIds :=
    map_fst_zip entries.ge
  have others : (columns.inputIds.zip (labels.zip scales)).map Prod.snd = labels.zip scales :=
    map_snd_zip entries.le
  have first : (labels.zip scales).map Prod.fst = labels :=
    map_fst_zip (labelled.trans scaled.symm).le
  have second : (labels.zip scales).map Prod.snd = scales :=
    map_snd_zip (scaled.trans labelled.symm).le
  rw [← others, map_map] at first second
  obtain ⟨inputIds, columnLabels, columnScales⟩ := columns
  simp only [columnsOf, map_map, TokenColumns.mk.injEq]
  refine ⟨tokens.symm, areLabels.trans ?_, areScales.trans ?_⟩
  · exact congrArg (fun values => if columnLabels.isSome then some values else none) first.symm
  · exact congrArg (fun values => if columnScales.isSome then some values else none) second.symm

theorem aligned_columnsOf (items : List (TokenItem K)) :
    (columnsOf hasLabels hasScale items).Aligned := by
  constructor
  · cases hasLabels <;> simp [columnsOf]
  · cases hasScale <;> simp [columnsOf]

theorem replaceAll_columnsOf (items : List (TokenItem K)) (newTokens : ℕ → Option (List ℤ)) :
    (columnsOf hasLabels hasScale items).replaceAll newTokens =
      columnsOf hasLabels hasScale
        (replaceEach (fun place item => (newTokens place).map (newItems item)) 0 items) := by
  have ids := replaceEach_map TokenItem.token
    (fun place item => (newTokens place).map (newItems item)) (fun place _ => newTokens place)
    (fun place item => by cases newTokens place <;> simp) 0 items
  have labels := replaceEach_map TokenItem.label
    (fun place item => (newTokens place).map (newItems item))
    (fun place _ => (newTokens place).map fun tokens => replicate tokens.length (-100))
    (fun place item => by cases newTokens place <;> simp) 0 items
  have scales := replaceEach_map TokenItem.scale
    (fun place item => (newTokens place).map (newItems item))
    (fun place scale => (newTokens place).map fun tokens => replicate tokens.length scale)
    (fun place item => by cases newTokens place <;> simp) 0 items
  rw [TokenColumns.replaceAll, columnsOf, columnsOf, ids]
  cases hasLabels <;> cases hasScale <;> simp [labels, scales]

/-- **All places are replaced at once**, and the columns stay equally long. -/
theorem extendTokens_eq [Zero K] {columns : TokenColumns K} (aligned : columns.Aligned)
    {replaceIdxList : List ℕ} (increasing : replaceIdxList.Pairwise (· < ·))
    (inside : ∀ idx ∈ replaceIdxList, idx < columns.inputIds.length)
    (getNewTokens : ℕ → Option (List ℤ)) :
    extendTokens columns replaceIdxList getNewTokens =
        some (columns.replaceAll (newTokensAt replaceIdxList getNewTokens)) ∧
      (columns.replaceAll (newTokensAt replaceIdxList getNewTokens)).Aligned := by
  obtain ⟨hasLabels, hasScale, items, rfl⟩ := exists_columnsOf aligned
  rw [replaceAll_columnsOf]
  refine ⟨?_, aligned_columnsOf _ _ _⟩
  have length : (columnsOf hasLabels hasScale items).inputIds.length = items.length :=
    length_map _
  have places : ∀ idx ∈ replaceIdxList, 0 ≤ idx ∧ idx < 0 + items.length := by
    intro idx isIdx
    have limit := inside idx isIdx
    omega
  obtain ⟨added, isDone⟩ :=
    foldlM_extendStep getNewTokens hasLabels hasScale increasing [] items 0 0 places
  rw [nil_append, nil_append] at isDone
  have start : (([] : List (TokenItem K)).length : ℤ) - (0 : ℕ) = 0 := rfl
  rw [start] at isDone
  rw [extendTokens, isDone]
  rfl

/-- A sample with two placeholders, of which one has its tokens. -/
theorem extendTokens_eq_twoPlaceholders :
    extendTokens (K := ℕ) ⟨[1, 7, 2, 7], some [-100, 7, 2, 7], some [0, 1, 2, 3]⟩ [1, 3]
        (fun index => [[8, 9]][index]?) =
      some ⟨[1, 8, 9, 2, 7], some [-100, -100, -100, 2, 7], some [0, 1, 1, 2, 3]⟩ := by
  have aligned : TokenColumns.Aligned
      (⟨[1, 7, 2, 7], some [-100, 7, 2, 7], some [0, 1, 2, 3]⟩ : TokenColumns ℕ) :=
    ⟨by simp, by simp⟩
  exact (extendTokens_eq aligned (by decide) (by decide) _).1.trans rfl

end Items

end Geobench.Template
