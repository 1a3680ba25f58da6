import Geobench.Library.Grouping
import Geobench.Library.ListSlices
import Geobench.Library.Paths
import Mathlib.Data.Char
import Mathlib.Data.List.Lex
import Mathlib.Data.List.Pairwise

/-!
# Candidates of the groups

`prepare_group_candidates` looks for the annotated images of the groups that a selection names. An
image is linked at the place that its group and its file name give it, without the directory that
it came from. A group with several images goes to the scorer, and a group with one image is kept as
it is.

**`preparesWell_iff`** says when all this goes well: the images and the places of their links and
rows are different, no link stands where another one needs a directory, and no stem is empty.
-/

namespace Geobench.DataClean

open Library List

/-! ## Rows and their stems -/

/-- A decoded value of a row. Of one that is no text there is the JSON. -/
inductive FieldValue where
  | text (value : Text)
  | other (json : Text)
  deriving DecidableEq

abbrev GroupRow := Record Text FieldValue

def levelSuffixes : List Text := [['1'], ['2'], ['3']]

/-- `path_stem` -/
def pathStem (path : Text) : Text :=
  match splitLast ['.'] (pathName path) with
  | none => pathName path
  | some (before, _) => before

def splitGroupStem (stem : Text) : Text × Text :=
  match splitLast ['_'] stem with
  | some (base, suffix) => if suffix ∈ levelSuffixes then (stem, base) else (stem, stem)
  | none => (stem, stem)

def firstText (keys : List Text) (row : GroupRow) : Option Text :=
  keys.findSome? fun key =>
    match row.get? key with
    | some (.text value) => if strip isBlank value ≠ [] then some value else none
    | _ => none

namespace Key

def relativePath : Text := "relative_path".toList
def imagePath : Text := "image_path".toList
def imageName : Text := "image_name".toList
def filename : Text := "filename".toList
def fileName : Text := "file_name".toList
def filepath : Text := "filepath".toList
def itemId : Text := "item_id".toList
def sourceImagePath : Text := "source_image_path".toList
def groupId : Text := "group_id".toList
def groupMemberStem : Text := "group_member_stem".toList
def groupSize : Text := "group_size".toList
def selectionReason : Text := "selection_reason".toList
def selected : Text := "selected".toList

end Key

/-- `infer_row_stem`. A row with none of the texts raises. -/
def inferRowStem (selectionMode : Bool) (row : GroupRow) : Option Text :=
  match firstText [Key.relativePath, Key.imagePath, Key.imageName, Key.filename, Key.fileName,
      Key.filepath] row with
  | some value => some (pathStem value)
  | none =>
    match row.get? Key.itemId with
    | some (.text itemId) =>
      if itemId = [] then none
      else
        match splitLast ['_'] itemId with
        | some (before, _) => some (if selectionMode then before else itemId)
        | none => some itemId
    | _ => none

def inferImagePath (row : GroupRow) : Option Text :=
  firstText [Key.imagePath, Key.relativePath, Key.imageName, Key.filename, Key.fileName,
    Key.filepath] row

/-- `collect_target_groups`, with the groups that are collected so far. -/
def collectTargetGroups (maxSamples : Option ℤ) :
    List Text → List GroupRow → Option (List Text)
  | groups, [] => some groups
  | groups, row :: rest =>
    match inferRowStem true row with
    | none => none
    | some stem =>
      let groupBase := (splitGroupStem stem).2
      if groupBase ∈ groups then collectTargetGroups maxSamples groups rest
      else if maxSamples.any (fun most => most ≤ ((groups.length + 1 : ℕ) : ℤ)) then
        some (groups ++ [groupBase])
      else collectTargetGroups maxSamples (groups ++ [groupBase]) rest

def inferGroupFromRelativePath (relativePath : Text) : Text × Text :=
  let parts := pathParts relativePath
  let memberStem := stemOf (parts.getLast?.getD [])
  let parentName := parts.dropLast.getLast?.getD []
  (if parentName ≠ [] then parentName else (splitGroupStem memberStem).2, memberStem)

/-! ## Candidates -/

/-- An annotated image. -/
structure Candidate where
  row : GroupRow
  imageRef : Text
  source : Text

namespace Candidate

variable (candidate : Candidate)

def memberStem : Text := pathStem candidate.imageRef

def groupBase : Text := (splitGroupStem candidate.memberStem).2

def ext : Text := suffixOf (pathName candidate.source)

/-- The parts of the path of its link. -/
def path : List Text :=
  pathParts candidate.groupBase ++ pathParts (candidate.memberStem ++ candidate.ext)

end Candidate

/-- What the file system makes of paths: the path of an image that is annotated with a text, and
the file that a path leads to. -/
structure FileSystem where
  originalPath : Text → Text
  resolve : Text → Text

variable (files : FileSystem)

def FileSystem.candidateOf (row : GroupRow) : Option Candidate :=
  (inferImagePath row).map fun imageRef =>
    { row := row, imageRef := imageRef, source := files.originalPath imageRef }

def FileSystem.newRow (candidate : Candidate) : GroupRow :=
  ((((candidate.row.store Key.imagePath (.text (files.resolve candidate.source))).store
    Key.relativePath (.text (pathText candidate.path))).store
    Key.sourceImagePath (.text candidate.source)).store
    Key.groupId (.text candidate.groupBase)).store
    Key.groupMemberStem (.text candidate.memberStem)

def FileSystem.singletonRow (candidate : Candidate) : GroupRow :=
  (((((files.newRow candidate).store Key.imagePath (.text candidate.source)).store
    Key.relativePath
      (.text (pathText (pathParts candidate.groupBase ++
        pathParts (pathName candidate.source))))).store
    Key.groupSize (.other ['1'])).store
    Key.selectionReason (.text "singleton_group_no_inference".toList)).store
    Key.selected (.other "true".toList)

/-- A link from a path below the root of the candidates. -/
abbrev Links := List (List Text × Text)

/-- Make a link, in the place of one that is there. A link cannot take the place of a directory,
and its directory not that of a link. -/
def makeLink (links : Links) (path : List Text) (source : Text) : Option Links :=
  if path = [] ∨ path.getLast? = some ['.', '.'] ∨ path.dropLast ∈ links.map Prod.fst ∨
      path ∈ links.map (fun link => link.1.dropLast) then none
  else some (setItem links path source)

/-- What the loop over the annotation rows has so far. -/
structure Gathered where
  links : Links
  groupedCandidates : List (Text × List Candidate)
  groupSizes : List (Text × ℕ)

def Gathered.start : Gathered := ⟨[], [], []⟩

def Gathered.add (gathered : Gathered) (candidate : Candidate) : Option Gathered :=
  (makeLink gathered.links candidate.path candidate.source).map fun links =>
    { links := links
      groupedCandidates := append gathered.groupedCandidates candidate.groupBase candidate
      groupSizes := setItem gathered.groupSizes candidate.groupBase
        ((valueAt gathered.groupSizes candidate.groupBase).getD 0 + 1) }

def FileSystem.gather (targetGroups : List Text) (gathered : Gathered) (row : GroupRow) :
    Option Gathered :=
  match files.candidateOf row with
  | none => none
  | some candidate =>
    if candidate.groupBase ∈ targetGroups then gathered.add candidate else some gathered

structure PrepStats where
  selectionRows : ℕ
  selectionGroups : ℕ
  maxSamples : Option ℤ
  annotationRows : ℕ
  matchedRows : ℕ
  matchedGroups : ℕ
  multiItemCandidateRows : ℕ
  multiItemGroups : ℕ
  singletonGroupsSkippedInference : ℕ
  groupSizes : List (Text × ℕ)

/-- The links, the rows for the scorer, the statistics and the rows of single images. -/
structure Prepared where
  links : Links
  filteredRows : List GroupRow
  stats : PrepStats
  singletonRows : List GroupRow

def FileSystem.prepareGroupCandidates (selectionRows annotationRows : List GroupRow)
    (maxSamples : Option ℤ) : Option Prepared :=
  (collectTargetGroups maxSamples [] selectionRows).bind fun targetGroups =>
    (annotationRows.foldlM (files.gather targetGroups) Gathered.start).map fun gathered =>
      let single := gathered.groupedCandidates.filter (·.2.length = 1)
      let multiItem := gathered.groupedCandidates.filter (·.2.length ≠ 1)
      let filteredRows := (multiItem.flatMap Prod.snd).map files.newRow
      { links := gathered.links
        filteredRows := filteredRows
        stats :=
          { selectionRows := selectionRows.length
            selectionGroups := targetGroups.length
            maxSamples := maxSamples
            annotationRows := annotationRows.length
            matchedRows := (gathered.groupSizes.map Prod.snd).sum
            matchedGroups := gathered.groupSizes.length
            multiItemCandidateRows := filteredRows.length
            multiItemGroups := multiItem.length
            singletonGroupsSkippedInference := single.length
            groupSizes := gathered.groupSizes.mergeSort fun first second =>
              decide (first.1 ≤ second.1) }
        singletonRows := (single.flatMap Prod.snd).map files.singletonRow }

/-! ## The group of a path -/

theorem slash_not_mem_pathStem (path : Text) : '/' ∉ pathStem path := by
  have free := slash_not_mem_pathName path
  rw [pathStem]
  cases isSplit : splitLast ['.'] (pathName path) with
  | none => exact free
  | some parts =>
    intro slash
    rw [eq_append_of_splitLast isSplit] at free
    exact free (mem_append_left _ slash)

theorem splitGroupStem_isStart (stem : Text) : (splitGroupStem stem).2 <+: stem := by
  rw [splitGroupStem]
  cases isSplit : splitLast ['_'] stem with
  | none => exact prefix_rfl
  | some parts =>
    dsimp only
    split
    · exact ⟨['_'] ++ parts.2, (eq_append_of_splitLast isSplit).symm⟩
    · exact prefix_rfl

theorem splitGroupStem_cases (stem : Text) :
    (splitGroupStem stem).2 = stem ∨
      ∃ suffix ∈ levelSuffixes, stem = (splitGroupStem stem).2 ++ '_' :: suffix := by
  rw [splitGroupStem]
  cases isSplit : splitLast ['_'] stem with
  | none => exact .inl rfl
  | some parts =>
    dsimp only
    split
    · rename_i isLevel
      exact .inr ⟨parts.2, isLevel, eq_append_of_splitLast isSplit⟩
    · exact .inl rfl

theorem splitGroupStem_dot_ne_nil (rest : Text) : (splitGroupStem ('.' :: rest)).2 ≠ [] := by
  intro empty
  rcases splitGroupStem_cases ('.' :: rest) with same | ⟨suffix, -, same⟩
  · rw [empty] at same
    cases same
  · rw [empty] at same
    cases same

theorem stemOf_of_groupless {stem : Text} (some : stem ≠ []) (notDot : stem ≠ ['.'])
    (groupless : (splitGroupStem stem).2 = [] ∨ (splitGroupStem stem).2 = ['.']) :
    stemOf stem = stem := by
  rcases splitGroupStem_cases stem with same | ⟨suffix, isLevel, same⟩
  · rw [same] at groupless
    exact (groupless.elim some notDot).elim
  · have levels : suffix = ['1'] ∨ suffix = ['2'] ∨ suffix = ['3'] := by
      simpa [levelSuffixes] using isLevel
    rcases groupless with empty | dot
    · rw [empty] at same
      rcases levels with rfl | rfl | rfl <;> (rw [same]; decide)
    · rw [dot] at same
      rcases levels with rfl | rfl | rfl <;> (rw [same]; decide)

/-- The name of a file without a slash is that of its link. -/
theorem inferGroup_of_parts {parts : List Text} {last : Text}
    (areParts : ∀ part ∈ parts ++ [last], IsPart part) :
    (inferGroupFromRelativePath (pathText (parts ++ [last]))).1 =
      match parts.getLast? with
      | some parent => parent
      | none => (splitGroupStem (stemOf last)).2 := by
  rw [inferGroupFromRelativePath, pathParts_pathText areParts]
  simp only [getLast?_concat, dropLast_concat, Option.getD_some]
  cases isParent : parts.getLast? with
  | none => simp
  | some parent =>
    have isPart := areParts parent (mem_append_left _ (mem_of_getLast? isParent))
    simp [isPart.1]

namespace Candidate

variable (candidate : Candidate)

theorem slash_not_mem_groupBase : '/' ∉ candidate.groupBase := fun slash =>
  slash_not_mem_pathStem candidate.imageRef ((splitGroupStem_isStart _).subset slash)

theorem slash_not_mem_ext : '/' ∉ candidate.ext := fun slash => by
  have whole := stemOf_append_suffixOf (pathName candidate.source)
  have free := slash_not_mem_pathName candidate.source
  rw [← whole] at free
  exact free (mem_append_right _ slash)

theorem slash_not_mem_fileName : '/' ∉ candidate.memberStem ++ candidate.ext := by
  rw [mem_append, not_or]
  exact ⟨slash_not_mem_pathStem candidate.imageRef, candidate.slash_not_mem_ext⟩

theorem isPart_of_mem_path {part : Text} (isIn : part ∈ candidate.path) : IsPart part := by
  rcases mem_append.mp isIn with isIn | isIn
  · exact isPart_of_mem isIn
  · exact isPart_of_mem isIn

/-- The group of a link is the one that it was made for, unless its stem is empty. -/
theorem inferGroup_path (placed : candidate.path ≠ []) :
    (inferGroupFromRelativePath (pathText candidate.path)).1 = candidate.groupBase ↔
      candidate.memberStem ≠ [] := by
  have areParts : ∀ part ∈ candidate.path, IsPart part := fun _ => candidate.isPart_of_mem_path
  by_cases noName : candidate.memberStem ++ candidate.ext = [] ∨
      candidate.memberStem ++ candidate.ext = ['.']
  · -- there would be no part at all
    exfalso
    have noStem : candidate.memberStem = [] ∨ candidate.memberStem = ['.'] := by
      rcases noName with empty | dot
      · exact .inl (append_eq_nil_iff.mp empty).1
      · rcases append_eq_singleton_iff.mp dot with ⟨empty, -⟩ | ⟨dot, -⟩
        · exact .inl empty
        · exact .inr dot
    have noGroup : pathParts candidate.groupBase = [] := by
      rw [groupBase]
      rcases noStem with same | same <;> (rw [same]; decide)
    rw [path, noGroup, pathParts_of_free candidate.slash_not_mem_fileName, if_pos noName] at placed
    exact placed rfl
  · have isFile : pathParts (candidate.memberStem ++ candidate.ext) =
        [candidate.memberStem ++ candidate.ext] := by
      rw [pathParts_of_free candidate.slash_not_mem_fileName, if_neg noName]
    rw [path, isFile] at areParts ⊢
    rw [inferGroup_of_parts areParts]
    by_cases groupless : candidate.groupBase = [] ∨ candidate.groupBase = ['.']
    · rw [pathParts_of_free candidate.slash_not_mem_groupBase, if_pos groupless]
      change (splitGroupStem (stemOf (candidate.memberStem ++ candidate.ext))).2 =
        (splitGroupStem candidate.memberStem).2 ↔ _
      rcases suffixOf_cases (pathName candidate.source) with none | ⟨after, some, free, isExt⟩
      · have noExt : candidate.ext = [] := none
        rw [noExt, append_nil] at noName ⊢
        rw [not_or] at noName
        rw [stemOf_of_groupless noName.1 noName.2 groupless]
        exact iff_of_true rfl noName.1
      · have hasExt : candidate.ext = '.' :: after := isExt
        rw [hasExt]
        by_cases empty : candidate.memberStem = []
        · rw [empty, nil_append]
          have whole : stemOf ('.' :: after) = '.' :: after := by
            have isSplit := splitLast_singleton [] free
            rw [nil_append] at isSplit
            rw [stemOf, splitSuffix, isSplit]
            rfl
          rw [whole]
          exact iff_of_false (splitGroupStem_dot_ne_nil after) (fun some => some rfl)
        · rw [stemOf_append_dot empty some free]
          exact iff_of_true rfl empty
    · rw [pathParts_of_free candidate.slash_not_mem_groupBase, if_neg groupless]
      refine iff_of_true rfl fun empty => groupless (.inl ?_)
      rw [groupBase, empty]
      decide

end Candidate

/-! ## The loop over the rows -/

def IsLinkPath (path : List Text) : Prop := path ≠ [] ∧ path.getLast? ≠ some ['.', '.']

/-- None of two links stands where the other one needs a directory. -/
def Apart (first second : List Text) : Prop := first.dropLast ≠ second ∧ second.dropLast ≠ first

theorem makeLink_eq_some_iff {links made : Links} {path : List Text} {source : Text} :
    makeLink links path source = some made ↔
      IsLinkPath path ∧ (∀ other ∈ links.map Prod.fst, Apart other path) ∧
        setItem links path source = made := by
  rw [makeLink]
  constructor
  · intro isMade
    split at isMade
    · cases isMade
    · rename_i free
      rw [not_or, not_or, not_or] at free
      refine ⟨⟨free.1, free.2.1⟩, fun other isLink => ⟨fun same => free.2.2.2 ?_, fun same => ?_⟩,
        Option.some.inj isMade⟩
      · obtain ⟨link, isIn, rfl⟩ := mem_map.mp isLink
        exact mem_map.mpr ⟨link, isIn, same⟩
      · exact free.2.2.1 (same ▸ isLink)
  · rintro ⟨isPath, apart, rfl⟩
    refine if_neg ?_
    rw [not_or, not_or, not_or]
    refine ⟨isPath.1, isPath.2, fun isLink => (apart _ isLink).2 rfl, fun isDirectory => ?_⟩
    obtain ⟨link, isIn, same⟩ := mem_map.mp isDirectory
    exact (apart _ (mem_map_of_mem isIn)).1 same

/-- What a candidate adds when its link is made. -/
def Gathered.after (gathered : Gathered) (candidate : Candidate) : Gathered where
  links := setItem gathered.links candidate.path candidate.source
  groupedCandidates := append gathered.groupedCandidates candidate.groupBase candidate
  groupSizes := setItem gathered.groupSizes candidate.groupBase
    ((valueAt gathered.groupSizes candidate.groupBase).getD 0 + 1)

theorem add_eq_some_iff {gathered next : Gathered} {candidate : Candidate} :
    gathered.add candidate = some next ↔
      IsLinkPath candidate.path ∧
        (∀ other ∈ gathered.links.map Prod.fst, Apart other candidate.path) ∧
        gathered.after candidate = next := by
  rw [Gathered.add, Option.map_eq_some_iff]
  constructor
  · rintro ⟨links, isMade, rfl⟩
    obtain ⟨isPath, apart, rfl⟩ := makeLink_eq_some_iff.mp isMade
    exact ⟨isPath, apart, rfl⟩
  · rintro ⟨isPath, apart, rfl⟩
    exact ⟨_, makeLink_eq_some_iff.mpr ⟨isPath, apart, rfl⟩, rfl⟩

theorem mem_keys_setItem {β : Type} {links : List (List Text × β)} {path other : List Text}
    {value : β} : other ∈ (setItem links path value).map Prod.fst ↔
      other ∈ links.map Prod.fst ∨ other = path := by
  rw [mem_keys_iff_isSome, valueAt_setItem, mem_keys_iff_isSome]
  split
  · rename_i same
    simp [same]
  · rename_i differs
    simp [differs]

/-- All links are made if all are links, and each is apart from those before it. -/
theorem foldlM_add_eq_some_iff {candidates : List Candidate} {gathered final : Gathered} :
    candidates.foldlM Gathered.add gathered = some final ↔
      (∀ candidate ∈ candidates, IsLinkPath candidate.path) ∧
        (∀ other ∈ gathered.links.map Prod.fst, ∀ candidate ∈ candidates,
          Apart other candidate.path) ∧
        candidates.Pairwise (fun first second => Apart first.path second.path) ∧
        candidates.foldl Gathered.after gathered = final := by
  induction candidates generalizing gathered with
  | nil => simp [eq_comm]
  | cons candidate rest ih =>
    rw [foldlM_cons, Option.bind_eq_bind, Option.bind_eq_some_iff, foldl_cons, pairwise_cons]
    have keys : ∀ other, other ∈ (gathered.after candidate).links.map Prod.fst ↔
        other ∈ gathered.links.map Prod.fst ∨ other = candidate.path :=
      fun _ => mem_keys_setItem
    constructor
    · rintro ⟨next, isNext, isFinal⟩
      obtain ⟨isPath, apart, rfl⟩ := add_eq_some_iff.mp isNext
      obtain ⟨arePaths, apartRest, pairwise, same⟩ := ih.mp isFinal
      refine ⟨forall_mem_cons.mpr ⟨isPath, arePaths⟩, fun other isLink => ?_,
        ⟨fun later isLater => ?_, pairwise⟩, same⟩
      · exact forall_mem_cons.mpr
          ⟨apart other isLink, apartRest other ((keys other).mpr (.inl isLink))⟩
      · exact apartRest candidate.path ((keys _).mpr (.inr rfl)) later isLater
    · rintro ⟨arePaths, apart, ⟨apartFirst, pairwise⟩, same⟩
      obtain ⟨isPath, arePaths⟩ := forall_mem_cons.mp arePaths
      refine ⟨gathered.after candidate, add_eq_some_iff.mpr ⟨isPath, fun other isLink =>
        apart other isLink candidate mem_cons_self, rfl⟩, ih.mpr ⟨arePaths, ?_, pairwise,
        same⟩⟩
      intro other isLink later isLater
      rcases (keys other).mp isLink with isLink | rfl
      · exact apart other isLink later (mem_cons_of_mem _ isLater)
      · exact apartFirst later isLater

theorem links_foldl_after (candidates : List Candidate) (gathered : Gathered) :
    (candidates.foldl Gathered.after gathered).links =
      (candidates.map fun candidate => (candidate.path, candidate.source)).foldl
        (fun links link => setItem links link.1 link.2) gathered.links := by
  induction candidates generalizing gathered with
  | nil => rfl
  | cons candidate rest ih => exact ih (gathered.after candidate)

theorem groupedCandidates_foldl_after (candidates : List Candidate) (gathered : Gathered) :
    (candidates.foldl Gathered.after gathered).groupedCandidates =
      candidates.foldl (fun groups candidate => append groups candidate.groupBase candidate)
        gathered.groupedCandidates := by
  induction candidates generalizing gathered with
  | nil => rfl
  | cons candidate rest ih => exact ih (gathered.after candidate)

/-- The candidates of the rows: the annotated images of the target groups. -/
def FileSystem.candidates (targetGroups : List Text) (annotationRows : List GroupRow) :
    Option (List Candidate) :=
  (annotationRows.mapM files.candidateOf).map fun candidates =>
    candidates.filter (·.groupBase ∈ targetGroups)

theorem foldlM_gather (targetGroups : List Text) (annotationRows : List GroupRow)
    (gathered : Gathered) :
    annotationRows.foldlM (files.gather targetGroups) gathered =
      (files.candidates targetGroups annotationRows).bind fun candidates =>
        candidates.foldlM Gathered.add gathered := by
  induction annotationRows generalizing gathered with
  | nil => rfl
  | cons row rest ih =>
    rw [foldlM_cons, FileSystem.gather, FileSystem.candidates, mapM_cons]
    cases isCandidate : files.candidateOf row with
    | none => rfl
    | some candidate =>
      have later : ∀ gathered, rest.foldlM (files.gather targetGroups) gathered =
          ((rest.mapM files.candidateOf).map fun candidates =>
            candidates.filter (·.groupBase ∈ targetGroups)).bind fun candidates =>
              candidates.foldlM Gathered.add gathered := ih
      by_cases isTarget : candidate.groupBase ∈ targetGroups
      · cases isNext : gathered.add candidate with
        | none =>
          cases isRest : rest.mapM files.candidateOf <;> simp [isTarget, isNext]
        | some next =>
          cases isRest : rest.mapM files.candidateOf <;>
            (rw [isRest] at later; simp [isTarget, isNext, later])
      · cases isRest : rest.mapM files.candidateOf <;>
          (rw [isRest] at later; simp [isTarget, later])

/-! ## The rows that are prepared -/

/-- The path of the row of a candidate: where it is alone in its group, the image keeps its
name. -/
def rowPath (candidates : List Candidate) (candidate : Candidate) : List Text :=
  if candidates.countP (·.groupBase = candidate.groupBase) = 1 then
    pathParts candidate.groupBase ++ pathParts (pathName candidate.source)
  else candidate.path

def FileSystem.rowOf (candidates : List Candidate) (candidate : Candidate) : GroupRow :=
  if candidates.countP (·.groupBase = candidate.groupBase) = 1 then files.singletonRow candidate
  else files.newRow candidate

def Prepared.rows (prepared : Prepared) : List GroupRow :=
  prepared.filteredRows ++ prepared.singletonRows

theorem rowOf_source (candidates : List Candidate) (candidate : Candidate) :
    (files.rowOf candidates candidate).get? Key.sourceImagePath = some (.text candidate.source) := by
  have differs : Key.sourceImagePath ∉ [Key.selected, Key.selectionReason, Key.groupSize,
      Key.relativePath, Key.imagePath, Key.groupMemberStem, Key.groupId] := by decide
  simp only [mem_cons, not_or] at differs
  rw [FileSystem.rowOf]
  split
  · simp [FileSystem.singletonRow, FileSystem.newRow, differs]
  · simp [FileSystem.newRow, differs]

theorem rowOf_relativePath (candidates : List Candidate) (candidate : Candidate) :
    (files.rowOf candidates candidate).get? Key.relativePath =
      some (.text (pathText (rowPath candidates candidate))) := by
  have differs : Key.relativePath ∉ [Key.selected, Key.selectionReason, Key.groupSize,
      Key.groupMemberStem, Key.groupId, Key.sourceImagePath] := by decide
  simp only [mem_cons, not_or] at differs
  rw [FileSystem.rowOf, rowPath]
  split
  · simp [FileSystem.singletonRow, differs]
  · simp [FileSystem.newRow, differs]

theorem isPart_of_mem_rowPath {candidates : List Candidate} {candidate : Candidate} {part : Text}
    (isIn : part ∈ rowPath candidates candidate) : IsPart part := by
  rw [rowPath] at isIn
  split at isIn
  · rcases mem_append.mp isIn with isIn | isIn
    · exact isPart_of_mem isIn
    · exact isPart_of_mem isIn
  · exact candidate.isPart_of_mem_path isIn

/-- All candidates have their row, whether they are alone in their group or not. -/
theorem rows_perm (candidates : List Candidate) :
    ((((groupBy Candidate.groupBase candidates).filter (·.2.length ≠ 1)).flatMap Prod.snd).map
        files.newRow ++
      (((groupBy Candidate.groupBase candidates).filter (·.2.length = 1)).flatMap Prod.snd).map
        files.singletonRow).Perm (candidates.map (files.rowOf candidates)) := by
  have count : ∀ group ∈ groupBy Candidate.groupBase candidates, ∀ candidate ∈ group.2,
      candidates.countP (·.groupBase = candidate.groupBase) = group.2.length := by
    intro group isGroup candidate isIn
    have items := eq_filter_of_mem_groupBy isGroup
    rw [items] at isIn
    have label : candidate.groupBase = group.1 := by simpa using (mem_filter.mp isIn).2
    rw [items, label, countP_eq_length_filter]
  have several : (((groupBy Candidate.groupBase candidates).filter (·.2.length ≠ 1)).flatMap
      Prod.snd).map files.newRow =
      (((groupBy Candidate.groupBase candidates).filter (·.2.length ≠ 1)).flatMap Prod.snd).map
        (files.rowOf candidates) := by
    refine map_congr_left fun candidate isIn => ?_
    obtain ⟨group, isGroup, isIn⟩ := mem_flatMap.mp isIn
    obtain ⟨isGroup, notOne⟩ := mem_filter.mp isGroup
    rw [FileSystem.rowOf, count group isGroup candidate isIn, if_neg (by simpa using notOne)]
  have single : (((groupBy Candidate.groupBase candidates).filter (·.2.length = 1)).flatMap
      Prod.snd).map files.singletonRow =
      (((groupBy Candidate.groupBase candidates).filter (·.2.length = 1)).flatMap Prod.snd).map
        (files.rowOf candidates) := by
    refine map_congr_left fun candidate isIn => ?_
    obtain ⟨group, isGroup, isIn⟩ := mem_flatMap.mp isIn
    obtain ⟨isGroup, isOne⟩ := mem_filter.mp isGroup
    rw [FileSystem.rowOf, count group isGroup candidate isIn, if_pos (by simpa using isOne)]
  rw [several, single, ← map_append, ← flatMap_append]
  have together := filter_append_perm (fun group : Text × List Candidate =>
    decide (group.2.length ≠ 1)) (groupBy Candidate.groupBase candidates)
  simp only [decide_not, Bool.not_not] at together ⊢
  exact ((together.flatMap_right Prod.snd).trans
    (flatMap_groupBy_perm Candidate.groupBase candidates)).map _

/-! ## The claim about the candidates -/

/-- Different images have different links and rows, each link is there and leads to its image
and the group, and each image has one row. -/
structure PreparedWell (candidates : List Candidate) (prepared : Prepared) : Prop where
  paths : ∀ first ∈ candidates, ∀ second ∈ candidates, first.source ≠ second.source →
    first.path ≠ second.path
  links : ∀ candidate ∈ candidates,
    valueAt prepared.links candidate.path = some candidate.source
  groups : ∀ candidate ∈ candidates,
    (inferGroupFromRelativePath (pathText candidate.path)).1 = candidate.groupBase
  rows : ∀ first ∈ prepared.rows, ∀ second ∈ prepared.rows,
    first.get? Key.sourceImagePath ≠ second.get? Key.sourceImagePath →
      first.get? Key.relativePath ≠ second.get? Key.relativePath
  once : ∀ candidate ∈ candidates,
    (prepared.rows.countP fun row =>
      row.get? Key.sourceImagePath = some (.text candidate.source)) = 1

def FileSystem.PreparesWell (selectionRows annotationRows : List GroupRow)
    (maxSamples : Option ℤ) : Prop :=
  ∃ targetGroups candidates prepared,
    collectTargetGroups maxSamples [] selectionRows = some targetGroups ∧
      files.candidates targetGroups annotationRows = some candidates ∧
      files.prepareGroupCandidates selectionRows annotationRows maxSamples = some prepared ∧
      PreparedWell candidates prepared

/-- The images are different and so are the places of their links and rows. No stem is empty, and
each link finds room. -/
structure Separable (candidates : List Candidate) : Prop where
  sources : (candidates.map Candidate.source).Nodup
  paths : (candidates.map Candidate.path).Nodup
  rowPaths : (candidates.map (rowPath candidates)).Nodup
  linkPath : ∀ candidate ∈ candidates, IsLinkPath candidate.path
  stem : ∀ candidate ∈ candidates, candidate.memberStem ≠ []
  apart : ∀ first ∈ candidates, ∀ second ∈ candidates, first.path.dropLast ≠ second.path

theorem pairwise_apart_iff {candidates : List Candidate}
    (arePaths : ∀ candidate ∈ candidates, IsLinkPath candidate.path) :
    candidates.Pairwise (fun first second => Apart first.path second.path) ↔
      ∀ first ∈ candidates, ∀ second ∈ candidates, first.path.dropLast ≠ second.path := by
  constructor
  · intro pairwise first isFirst second isSecond
    have symmetric : Std.Symm fun first second : Candidate => Apart first.path second.path :=
      ⟨fun _ _ apart => ⟨apart.2, apart.1⟩⟩
    -- a path is longer than that of its directory
    have self : ∀ candidate ∈ candidates, Apart candidate.path candidate.path := by
      intro candidate isIn
      have shorter : candidate.path.dropLast ≠ candidate.path := fun same => by
        have length := congrArg length same
        have positive := length_pos_iff.mpr (arePaths candidate isIn).1
        rw [length_dropLast] at length
        omega
      exact ⟨shorter, shorter⟩
    exact (List.Pairwise.forall_of_forall self pairwise isFirst isSecond).1
  · intro apart
    exact pairwise_of_forall_mem_list fun first isFirst second isSecond =>
      ⟨apart first isFirst second isSecond, apart second isSecond first isFirst⟩

/-- What is prepared, when the links can be made. -/
theorem prepareGroupCandidates_eq_some {selectionRows annotationRows : List GroupRow}
    {maxSamples : Option ℤ} {targetGroups : List Text} {candidates : List Candidate}
    (isTarget : collectTargetGroups maxSamples [] selectionRows = some targetGroups)
    (areCandidates : files.candidates targetGroups annotationRows = some candidates)
    {prepared : Prepared} :
    files.prepareGroupCandidates selectionRows annotationRows maxSamples = some prepared →
      (∀ candidate ∈ candidates, IsLinkPath candidate.path) ∧
        (∀ first ∈ candidates, ∀ second ∈ candidates, first.path.dropLast ≠ second.path) ∧
        prepared.links = (candidates.map fun candidate => (candidate.path, candidate.source)).foldl
          (fun links link => setItem links link.1 link.2) [] ∧
        prepared.rows.Perm (candidates.map (files.rowOf candidates)) := by
  intro isPrepared
  rw [FileSystem.prepareGroupCandidates, isTarget, Option.bind_some, foldlM_gather, areCandidates,
    Option.bind_some, Option.map_eq_some_iff] at isPrepared
  obtain ⟨gathered, isGathered, same⟩ := isPrepared
  obtain ⟨arePaths, -, pairwise, final⟩ := foldlM_add_eq_some_iff.mp isGathered
  have links := links_foldl_after candidates Gathered.start
  have groups := groupedCandidates_foldl_after candidates Gathered.start
  rw [final] at links groups
  refine ⟨arePaths, (pairwise_apart_iff arePaths).mp pairwise, ?_, ?_⟩
  · rw [← same]
    exact links
  · rw [← same, Prepared.rows]
    dsimp only
    rw [groups]
    exact rows_perm files candidates

theorem isSome_prepareGroupCandidates {selectionRows annotationRows : List GroupRow}
    {maxSamples : Option ℤ} {targetGroups : List Text} {candidates : List Candidate}
    (isTarget : collectTargetGroups maxSamples [] selectionRows = some targetGroups)
    (areCandidates : files.candidates targetGroups annotationRows = some candidates)
    (separable : Separable candidates) :
    ∃ prepared,
      files.prepareGroupCandidates selectionRows annotationRows maxSamples = some prepared := by
  rw [FileSystem.prepareGroupCandidates, isTarget, Option.bind_some, foldlM_gather, areCandidates,
    Option.bind_some]
  have none : ∀ other ∈ Gathered.start.links.map Prod.fst, ∀ candidate ∈ candidates,
      Apart other candidate.path := fun other isLink => absurd isLink not_mem_nil
  have isGathered := foldlM_add_eq_some_iff.mpr ⟨separable.linkPath, none,
    (pairwise_apart_iff separable.linkPath).mpr separable.apart, rfl⟩
  exact ⟨_, Option.map_eq_some_iff.mpr ⟨_, isGathered, rfl⟩⟩

theorem countP_rows {candidates : List Candidate} {rows : List GroupRow}
    (rearranged : rows.Perm (candidates.map (files.rowOf candidates))) (source : Text) :
    (rows.countP fun row => row.get? Key.sourceImagePath = some (.text source)) =
      (candidates.map Candidate.source).count source := by
  rw [rearranged.countP_eq, countP_map, List.count, countP_map]
  refine countP_congr fun candidate _ => ?_
  simp [rowOf_source files]

/-- The candidates are prepared well exactly when they are separable. -/
theorem preparesWell_iff (selectionRows annotationRows : List GroupRow) (maxSamples : Option ℤ) :
    files.PreparesWell selectionRows annotationRows maxSamples ↔
      ∃ targetGroups candidates,
        collectTargetGroups maxSamples [] selectionRows = some targetGroups ∧
          files.candidates targetGroups annotationRows = some candidates ∧
          Separable candidates := by
  constructor
  · rintro ⟨targetGroups, candidates, prepared, isTarget, areCandidates, isPrepared, well⟩
    refine ⟨targetGroups, candidates, isTarget, areCandidates, ?_⟩
    obtain ⟨arePaths, apart, -, rearranged⟩ :=
      prepareGroupCandidates_eq_some files isTarget areCandidates isPrepared
    have sources : (candidates.map Candidate.source).Nodup := by
      rw [nodup_iff_count_eq_one]
      intro source isSource
      obtain ⟨candidate, isIn, rfl⟩ := mem_map.mp isSource
      rw [← countP_rows files rearranged]
      exact well.once candidate isIn
    have differ := pairwise_map.mp sources
    refine ⟨sources, ?_, ?_, arePaths, fun candidate isIn => ?_, apart⟩
    · rw [nodup_iff_pairwise_ne, pairwise_map]
      exact differ.imp_of_mem fun isFirst isSecond differs =>
        well.paths _ isFirst _ isSecond differs
    · rw [nodup_iff_pairwise_ne, pairwise_map]
      refine differ.imp_of_mem fun {first second} isFirst isSecond differs same => ?_
      have inRows := fun candidate (isIn : candidate ∈ candidates) =>
        rearranged.mem_iff.mpr (mem_map_of_mem (f := files.rowOf candidates) isIn)
      refine well.rows _ (inRows first isFirst) _ (inRows second isSecond) ?_ ?_
      · rw [rowOf_source, rowOf_source]
        simpa using differs
      · rw [rowOf_relativePath, rowOf_relativePath, same]
    · exact (candidate.inferGroup_path (arePaths candidate isIn).1).mp (well.groups candidate isIn)
  · rintro ⟨targetGroups, candidates, isTarget, areCandidates, separable⟩
    obtain ⟨prepared, isPrepared⟩ :=
      isSome_prepareGroupCandidates files isTarget areCandidates separable
    refine ⟨targetGroups, candidates, prepared, isTarget, areCandidates, isPrepared, ?_⟩
    obtain ⟨arePaths, -, links, rearranged⟩ :=
      prepareGroupCandidates_eq_some files isTarget areCandidates isPrepared
    refine ⟨fun first isFirst second isSecond differs same => ?_, fun candidate isIn => ?_,
      fun candidate isIn => ?_, fun first isFirst second isSecond differs same => ?_,
      fun candidate isIn => ?_⟩
    · exact differs (congrArg Candidate.source
        (inj_on_of_nodup_map separable.paths isFirst isSecond same))
    · have different : ((candidates.map fun candidate => (candidate.path, candidate.source)).map
          Prod.fst).Nodup := by
        rw [map_map]
        exact separable.paths
      rw [links, valueAt_foldl_setItem different, valueAt_nil, Option.or_none]
      exact (Record.get?_eq_some_iff ⟨_, different⟩ candidate.path candidate.source).mpr
        (mem_map_of_mem isIn)
    · exact (candidate.inferGroup_path (arePaths candidate isIn).1).mpr
        (separable.stem candidate isIn)
    · obtain ⟨candidate, isIn, rfl⟩ := mem_map.mp (rearranged.mem_iff.mp isFirst)
      obtain ⟨other, isOther, rfl⟩ := mem_map.mp (rearranged.mem_iff.mp isSecond)
      rw [rowOf_relativePath, rowOf_relativePath, Option.some.injEq, FieldValue.text.injEq,
        pathText_inj (fun _ => isPart_of_mem_rowPath) (fun _ => isPart_of_mem_rowPath)] at same
      exact differs (by rw [inj_on_of_nodup_map separable.rowPaths isIn isOther same])
    · rw [countP_rows files rearranged]
      exact count_eq_one_of_mem separable.sources (mem_map_of_mem isIn)

end Geobench.DataClean
