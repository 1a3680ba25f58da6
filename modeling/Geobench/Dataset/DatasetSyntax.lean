import Geobench.Library.Decimal
import Geobench.Library.Loop

/-!
# Datasets as one text

The command line names a dataset by one text, with a hub in front, subsets after a colon and a
count of samples after a number sign. `DatasetSyntax.parse` cuts the text, at most once for each
separator, and does not cut a text that is an existing path. `DatasetSyntax.getRaw` writes the
parts as one text again, but writes neither the hub nor the colon.

**`rawRoundTrips_iff`** says which values come back, and which texts are fixed once they have been
parsed and written.
-/

namespace Geobench.Dataset

open Library List

/-! ## The parts of a dataset -/

/-- `os.path.exists` on texts. The empty text is no path. -/
structure LocalPaths where
  pathExists : Text → Bool
  pathExists_nil : pathExists [] = false

structure DatasetSyntax where
  dataset : Text
  subsets : List Text
  datasetSample : Option ℤ
  useHf : Option Bool

inductive SyntaxError where
  | typeError
  | attributeError
  | valueError
  deriving DecidableEq

inductive SplitMode where
  | left
  | right

def DatasetSyntax.getRaw (self : DatasetSyntax) : Except SyntaxError Text :=
  let subsets := ['/'].intercalate self.subsets
  match self.datasetSample with
  | none => .ok (self.dataset ++ subsets)
  | some number =>
    match strOf number with
    | none => .error .valueError
    | some sample => .ok (self.dataset ++ subsets ++ '#' :: sample)

/-- Split once. A text of one part is the first or the second part. -/
def safeSplit (text : Option Text) (separator : Text) (use0 : Bool) (splitMode : SplitMode) :
    Option Text × Option Text :=
  match text with
  | none | some [] => (none, none)
  | some text =>
    let part :=
      match splitMode with
      | .left => splitFirst separator text
      | .right => splitLast separator text
    match part with
    | none => if use0 then (some text, none) else (none, some text)
    | some (part0, part1) => (some part0, some part1)

/-- `os.path.exists(text)`, which takes no `None`. -/
def LocalPaths.lookUp (paths : LocalPaths) : Option Text → Except SyntaxError Bool
  | none => .error .typeError
  | some path => .ok (paths.pathExists path)

/-- `{'hf': True, 'ms': False}.get(use_hf.lower())`. -/
def hubFlag (useHf : Option Text) : Option Bool :=
  let useHf := useHf.map fun hub => hub.map Char.toLower
  if useHf = some "hf".toList then some true
  else if useHf = some "ms".toList then some false
  else none

/-- `int(text)`. -/
def intSample (decimals : Decimals) (text : Text) : Except SyntaxError ℤ :=
  match intOf decimals text with
  | none => .error .valueError
  | some number => .ok number

def DatasetSyntax.parse (decimals : Decimals) (paths : LocalPaths) (dataset : Text) :
    Except SyntaxError DatasetSyntax := do
  let (useHf, dataset) :=
    if paths.pathExists dataset then (none, some dataset)
    else
      let (useHf, dataset) := safeSplit (some dataset) [':', ':'] false .left
      (hubFlag useHf, dataset)
  let (other, datasetSample) :=
    if ← paths.lookUp dataset then (dataset, none) else safeSplit dataset ['#'] true .right
  let (dataset, subsets) :=
    if ← paths.lookUp other then (other, none) else safeSplit other [':'] true .left
  let subsets := subsets.map fun subsets => (subsets.splitOn '/').map (strip isBlank)
  let datasetSample ← datasetSample.mapM (intSample decimals)
  match dataset with
  | none => .error .attributeError
  | some dataset => return ⟨strip isBlank dataset, subsets.getD [], datasetSample, useHf⟩

/-! ## How a text is cut -/

def afterHub (paths : LocalPaths) (text : Text) : Text :=
  if paths.pathExists text then text
  else ((splitFirst [':', ':'] text).map Prod.snd).getD text

/-- What stands before and after the last number sign. -/
def cutSample (paths : LocalPaths) (text : Text) : Text × Option Text :=
  if paths.pathExists text then (text, none)
  else ((splitLast ['#'] text).map fun parts => (parts.1, some parts.2)).getD (text, none)

/-- What stands before and after the first colon. -/
def cutSubsets (paths : LocalPaths) (text : Text) : Text × Option Text :=
  if paths.pathExists text then (text, none)
  else ((splitFirst [':'] text).map fun parts => (parts.1, some parts.2)).getD (text, none)

/-- The three texts that a text is cut into. -/
structure Parts where
  name : Text
  subsets : Option Text
  sample : Option Text

def partsOf (paths : LocalPaths) (text : Text) : Parts :=
  let (other, sample) := cutSample paths (afterHub paths text)
  let (name, subsets) := cutSubsets paths other
  ⟨name, subsets, sample⟩

/-- The names between the slashes. -/
def Parts.subsetNames (parts : Parts) : List Text :=
  (parts.subsets.map fun subsets => (subsets.splitOn '/').map (strip isBlank)).getD []

section Parsing

variable (decimals : Decimals) (paths : LocalPaths)

variable {text : Text}

theorem hub_eq (nonempty : text ≠ []) :
    (if paths.pathExists text then (none, some text)
      else
        let (useHf, dataset) := safeSplit (some text) [':', ':'] false .left
        (hubFlag useHf, dataset)) =
      (if paths.pathExists text then none
        else hubFlag ((splitFirst [':', ':'] text).map Prod.fst),
        some (afterHub paths text)) := by
  cases text with
  | nil => exact absurd rfl nonempty
  | cons char rest =>
    rw [afterHub]
    split
    · rfl
    · cases isSplit : splitFirst [':', ':'] (char :: rest) <;>
        simp [safeSplit, isSplit]

theorem sample_eq (nonempty : text ≠ []) :
    (if paths.pathExists text then (some text, none)
      else safeSplit (some text) ['#'] true .right) =
      (some (cutSample paths text).1, (cutSample paths text).2) := by
  cases text with
  | nil => exact absurd rfl nonempty
  | cons char rest =>
    rw [cutSample]
    split
    · rfl
    · cases isSplit : splitLast ['#'] (char :: rest) <;> simp [safeSplit, isSplit]

theorem subsets_eq (nonempty : text ≠ []) :
    (if paths.pathExists text then (some text, none)
      else safeSplit (some text) [':'] true .left) =
      (some (cutSubsets paths text).1, (cutSubsets paths text).2) := by
  cases text with
  | nil => exact absurd rfl nonempty
  | cons char rest =>
    rw [cutSubsets]
    split
    · rfl
    · cases isSplit : splitFirst [':'] (char :: rest) <;> simp [safeSplit, isSplit]

theorem mapM_intSample {sample : Option Text} {number : Option ℤ} :
    sample.mapM (intSample decimals) = .ok number ↔
      sample.mapM (intOf decimals) = some number := by
  cases sample with
  | none => simp [pure, Except.pure]
  | some text =>
    cases isNumber : intOf decimals text <;>
      simp [intSample, isNumber, Functor.map, Except.map]

/-- What parsing gives. Neither what follows the hub nor what stands before the number sign
may be empty, and the sample must be a number. -/
theorem parse_eq_ok_iff (text : Text) (found : DatasetSyntax) :
    DatasetSyntax.parse decimals paths text = .ok found ↔
      afterHub paths text ≠ [] ∧ (cutSample paths (afterHub paths text)).1 ≠ [] ∧
        (partsOf paths text).sample.mapM (intOf decimals) = some found.datasetSample ∧
        found.dataset = strip isBlank (partsOf paths text).name ∧
        found.subsets = (partsOf paths text).subsetNames ∧
        found.useHf = if paths.pathExists text then none
          else hubFlag ((splitFirst [':', ':'] text).map Prod.fst) := by
  by_cases noText : text = []
  · subst noText
    refine iff_of_false (fun parsed => ?_) fun accepted => accepted.1 ?_
    · rw [DatasetSyntax.parse, paths.pathExists_nil] at parsed
      cases parsed
    · rw [afterHub, paths.pathExists_nil]
      rfl
  · rw [DatasetSyntax.parse, hub_eq paths noText]
    by_cases noBody : afterHub paths text = []
    · refine iff_of_false (fun parsed => ?_) fun accepted => accepted.1 noBody
      simp only [noBody, LocalPaths.lookUp, paths.pathExists_nil, safeSplit] at parsed
      cases parsed
    · simp only [LocalPaths.lookUp, ok_bind, sample_eq paths noBody]
      by_cases noOther : (cutSample paths (afterHub paths text)).1 = []
      · refine iff_of_false (fun parsed => ?_) fun accepted => accepted.2.1 noOther
        simp only [noOther, paths.pathExists_nil, safeSplit] at parsed
        obtain ⟨sample, -, parsed⟩ := bind_eq_ok.mp parsed
        cases parsed
      · simp only [subsets_eq paths noOther]
        refine (bind_eq_ok).trans ⟨?_, ?_⟩
        · rintro ⟨sample, isSample, parsed⟩
          cases parsed
          exact ⟨noBody, noOther, (mapM_intSample decimals).mp isSample, rfl, rfl, rfl⟩
        · rintro ⟨-, -, isSample, isDataset, isSubsets, isHub⟩
          refine ⟨found.datasetSample, (mapM_intSample decimals).mpr isSample, ?_⟩
          cases found
          cases isDataset
          cases isSubsets
          cases isHub
          rfl

/-! ## What is written after parsing -/

/-- The number sign and the number as it is written. -/
def Parts.writtenSample (parts : Parts) : Text :=
  (parts.sample.map fun sample => '#' :: ((intOf decimals sample).bind strOf).getD []).getD []

/-- The parts joined, without hub and colon, without blanks around the names, and with the
number as it is written. -/
def Parts.joined (parts : Parts) : Text :=
  strip isBlank parts.name ++ ['/'].intercalate parts.subsetNames ++
    parts.writtenSample decimals

/-- A parsed text is written as its joined parts. -/
theorem getRaw_of_parse {found : DatasetSyntax}
    (parsed : DatasetSyntax.parse decimals paths text = .ok found) :
    found.getRaw = .ok ((partsOf paths text).joined decimals) := by
  obtain ⟨-, -, isSample, isDataset, isSubsets, -⟩ :=
    (parse_eq_ok_iff decimals paths text found).mp parsed
  rw [DatasetSyntax.getRaw, Parts.joined, Parts.writtenSample, isDataset, isSubsets]
  cases hasSample : (partsOf paths text).sample with
  | none =>
    rw [hasSample] at isSample
    have noSample : found.datasetSample = none := (Option.some.inj isSample).symm
    simp [noSample]
  | some sample =>
    rw [hasSample] at isSample
    obtain ⟨number, isNumber, isSample⟩ := Option.map_eq_some_iff.mp isSample
    obtain ⟨written, isWritten⟩ := exists_strOf decimals isNumber
    rw [← isSample]
    simp only [isNumber, Option.bind_some, isWritten, Option.map_some, Option.getD_some]

/-- Parse a text and write what was found. -/
def reprint (text : Text) : Except SyntaxError Text :=
  (DatasetSyntax.parse decimals paths text).bind DatasetSyntax.getRaw

/-- What is written after parsing a text that is accepted. -/
theorem reprint_eq_ok_iff (text raw : Text) :
    reprint decimals paths text = .ok raw ↔
      afterHub paths text ≠ [] ∧ (cutSample paths (afterHub paths text)).1 ≠ [] ∧
        (∀ sample, (partsOf paths text).sample = some sample →
          ∃ number, intOf decimals sample = some number) ∧
        raw = (partsOf paths text).joined decimals := by
  rw [reprint, bind_eq_ok]
  constructor
  · rintro ⟨found, parsed, isRaw⟩
    rw [getRaw_of_parse decimals paths parsed] at isRaw
    cases isRaw
    obtain ⟨hasBody, hasOther, isSample, -⟩ := (parse_eq_ok_iff decimals paths text found).mp parsed
    refine ⟨hasBody, hasOther, fun sample hasSample => ?_, rfl⟩
    rw [hasSample] at isSample
    obtain ⟨number, isNumber, -⟩ := Option.map_eq_some_iff.mp isSample
    exact ⟨number, isNumber⟩
  · rintro ⟨hasBody, hasOther, numbers, rfl⟩
    obtain ⟨count, isCount⟩ : ∃ count,
        (partsOf paths text).sample.mapM (intOf decimals) = some count := by
      cases hasSample : (partsOf paths text).sample with
      | none => exact ⟨none, rfl⟩
      | some sample =>
        obtain ⟨number, isNumber⟩ := numbers sample hasSample
        exact ⟨some number, Option.map_eq_some_iff.mpr ⟨number, isNumber, rfl⟩⟩
    have parsed := (parse_eq_ok_iff decimals paths text ⟨_, _, count, _⟩).mpr
      ⟨hasBody, hasOther, isCount, rfl, rfl, rfl⟩
    exact ⟨_, parsed, getRaw_of_parse decimals paths parsed⟩

/-- What is written has no blanks at its ends. -/
theorem strip_joined {parts : Parts}
    (numbers : ∀ sample, parts.sample = some sample →
      ∃ number, intOf decimals sample = some number) :
    strip isBlank (parts.joined decimals) = parts.joined decimals := by
  have subsets : ∀ subset ∈ parts.subsetNames, strip isBlank subset = subset := by
    intro subset isIn
    cases hasSubsets : parts.subsets with
    | none => simp [Parts.subsetNames, hasSubsets] at isIn
    | some names =>
      rw [Parts.subsetNames, hasSubsets, Option.map_some, Option.getD_some, mem_map] at isIn
      obtain ⟨name, -, rfl⟩ := isIn
      exact strip_strip isBlank name
  rw [Parts.joined, Parts.writtenSample]
  refine strip_append_eq_self (strip_append_eq_self (strip_strip isBlank parts.name)
    (strip_intercalate (by decide) subsets)) ?_
  cases hasSample : parts.sample with
  | none => rfl
  | some sample =>
    obtain ⟨number, isNumber⟩ := numbers sample hasSample
    obtain ⟨written, isWritten⟩ := exists_strOf decimals isNumber
    refine strip_eq_self fun char isIn => ?_
    simp only [isNumber, Option.bind_some, isWritten, Option.map_some, Option.getD_some,
      mem_cons] at isIn
    rcases isIn with rfl | isIn
    · decide
    · exact not_isBlank_of_strOf isWritten isIn

/-! ## Colons -/

/-- Cutting at the colon loses one. -/
theorem count_cutSubsets (text : Text) :
    text.count ':' = (cutSubsets paths text).1.count ':' +
      (((cutSubsets paths text).2.map fun subsets => subsets.count ':' + 1).getD 0) := by
  rw [cutSubsets]
  split
  · rfl
  · cases isSplit : splitFirst [':'] text with
    | none => rfl
    | some parts =>
      have isText := eq_append_of_splitFirst isSplit
      rw [isText]
      simp

theorem count_cutSample_le (text : Text) :
    (cutSample paths text).1.count ':' ≤ text.count ':' := by
  rw [cutSample]
  split
  · exact Nat.le_refl _
  · cases isSplit : splitLast ['#'] text with
    | none => exact Nat.le_refl _
    | some parts =>
      have isText := eq_append_of_splitLast isSplit
      rw [isText]
      simp

/-- What is written has no more colons than the parts. -/
theorem count_joined_le {parts : Parts}
    (numbers : ∀ sample, parts.sample = some sample →
      ∃ number, intOf decimals sample = some number) :
    (parts.joined decimals).count ':' ≤
      parts.name.count ':' + (parts.subsets.map fun subsets => subsets.count ':').getD 0 := by
  have name : (strip isBlank parts.name).count ':' ≤ parts.name.count ':' :=
    (strip_sublist isBlank parts.name).count_le ':'
  have subsets : (['/'].intercalate parts.subsetNames).count ':' ≤
      (parts.subsets.map fun subsets => subsets.count ':').getD 0 := by
    cases hasSubsets : parts.subsets with
    | none => simp [Parts.subsetNames, hasSubsets]
    | some names =>
      have shorter := intercalate_map_sublist ['/'] (strip_sublist isBlank) (names.splitOn '/')
      rw [intercalate_splitOn] at shorter
      simpa [Parts.subsetNames, hasSubsets] using shorter.count_le ':'
  have sample : (parts.writtenSample decimals).count ':' = 0 := by
    cases hasSample : parts.sample with
    | none => simp [Parts.writtenSample, hasSample]
    | some sample =>
      obtain ⟨number, isNumber⟩ := numbers sample hasSample
      obtain ⟨written, isWritten⟩ := exists_strOf decimals isNumber
      rw [Parts.writtenSample, hasSample]
      simp only [isNumber, Option.bind_some, isWritten, Option.map_some, Option.getD_some]
      rw [count_eq_zero, mem_cons, not_or]
      exact ⟨by decide, not_mem_strOf isWritten (by decide) (by decide)⟩
  rw [Parts.joined, count_append, count_append]
  omega

/-! ## Texts that are written as they are -/

/-- An existing path, or a text without hub, with a name before the number sign that has no
blanks at its ends and no colon, unless it is an existing path, and with a number after it as
numbers are written. -/
def Printed (text : Text) : Prop :=
  paths.pathExists text = true ∨
    (¬ [':', ':'] <:+: text ∧
      match splitLast ['#'] text with
      | none => text ≠ [] ∧ ':' ∉ text
      | some (name, sample) =>
        name ≠ [] ∧ strip isBlank name = name ∧ (paths.pathExists name = true ∨ ':' ∉ name) ∧
          ∃ number, strOf number = some sample)

theorem partsOf_of_exists (isPath : paths.pathExists text = true) :
    afterHub paths text = text ∧ cutSample paths text = (text, none) ∧
      cutSubsets paths text = (text, none) := by
  simp [afterHub, cutSample, cutSubsets, isPath]

theorem afterHub_of_noHub (noHub : ¬ [':', ':'] <:+: text) : afterHub paths text = text := by
  rw [afterHub, (splitFirst_eq_none_iff (cons_ne_nil _ _) text).mpr noHub]
  exact ite_self text

theorem cutSubsets_of_noColon (whole : paths.pathExists text = true ∨ ':' ∉ text) :
    cutSubsets paths text = (text, none) := by
  rcases whole with isPath | noColon
  · rw [cutSubsets, if_pos isPath]
  · rw [cutSubsets, (splitFirst_singleton_eq_none_iff ':' text).mpr noColon]
    exact ite_self _

theorem noColon_of_cutSubsets (noSubsets : (cutSubsets paths text).2 = none) :
    paths.pathExists text = true ∨ ':' ∉ text := by
  rw [cutSubsets] at noSubsets
  split at noSubsets
  · exact .inl ‹_›
  · refine .inr ((splitFirst_singleton_eq_none_iff ':' text).mp ?_)
    cases isSplit : splitFirst [':'] text with
    | none => rfl
    | some halves =>
      rw [isSplit] at noSubsets
      cases noSubsets

theorem cutSample_of_none (isSplit : splitLast ['#'] text = none) :
    cutSample paths text = (text, none) := by
  rw [cutSample, isSplit]
  exact ite_self _

theorem cutSample_of_some {halves : Text × Text} (notPath : paths.pathExists text = false)
    (isSplit : splitLast ['#'] text = some halves) :
    cutSample paths text = (halves.1, some halves.2) := by
  simp [cutSample, notPath, isSplit]

theorem partsOf_of_whole (noHub : ¬ [':', ':'] <:+: text)
    (whole : paths.pathExists (cutSample paths text).1 = true ∨ ':' ∉ (cutSample paths text).1) :
    partsOf paths text = ⟨(cutSample paths text).1, none, (cutSample paths text).2⟩ := by
  rw [partsOf, afterHub_of_noHub paths noHub]
  simp only [cutSubsets_of_noColon paths whole]

theorem noHub_of_count_le (notPath : paths.pathExists text = false)
    (numbers : ∀ sample, (partsOf paths text).sample = some sample →
      ∃ number, intOf decimals sample = some number)
    (kept : text.count ':' ≤ ((partsOf paths text).joined decimals).count ':') :
    ¬ [':', ':'] <:+: text ∧
      (paths.pathExists (cutSample paths text).1 = true ∨ ':' ∉ (cutSample paths text).1) := by
  have written := count_joined_le decimals numbers
  have subsets := count_cutSubsets paths (cutSample paths (afterHub paths text)).1
  have sample := count_cutSample_le paths (afterHub paths text)
  have parts : (partsOf paths text).name = (cutSubsets paths (cutSample paths
      (afterHub paths text)).1).1 ∧ (partsOf paths text).subsets = (cutSubsets paths
      (cutSample paths (afterHub paths text)).1).2 := ⟨rfl, rfl⟩
  rw [parts.1, parts.2] at written
  have fewer : ((cutSubsets paths (cutSample paths (afterHub paths text)).1).2.map
      fun subsets => subsets.count ':').getD 0 ≤ ((cutSubsets paths (cutSample paths
      (afterHub paths text)).1).2.map fun subsets => subsets.count ':' + 1).getD 0 := by
    cases (cutSubsets paths (cutSample paths (afterHub paths text)).1).2 <;> simp
  have noHub : ¬ [':', ':'] <:+: text := by
    intro hub
    cases isSplit : splitFirst [':', ':'] text with
    | none => exact (splitFirst_eq_none_iff (cons_ne_nil _ _) text).mp isSplit hub
    | some halves =>
      have isText := congrArg (List.count ':') (eq_append_of_splitFirst isSplit)
      rw [count_append, count_append] at isText
      have two : [':', ':'].count ':' = 2 := rfl
      have body : afterHub paths text = halves.2 := by simp [afterHub, notPath, isSplit]
      rw [body] at sample subsets written fewer
      omega
  refine ⟨noHub, noColon_of_cutSubsets paths ?_⟩
  rw [afterHub_of_noHub paths noHub] at written subsets sample
  cases hasSubsets : (cutSubsets paths (cutSample paths text).1).2 with
  | none => rfl
  | some names =>
    rw [hasSubsets] at written subsets
    simp only [Option.map_some, Option.getD_some] at written subsets
    omega

/-- A stripped text is parsed and written as itself exactly when it is printed. -/
theorem reprint_self_iff (stripped : strip isBlank text = text) :
    reprint decimals paths text = .ok text ↔ Printed paths text := by
  rw [reprint_eq_ok_iff]
  cases isPath : paths.pathExists text with
  | true =>
    obtain ⟨body, sample, subsets⟩ := partsOf_of_exists paths isPath
    have nonempty : text ≠ [] := by
      rintro rfl
      exact absurd (isPath.symm.trans paths.pathExists_nil) (by decide)
    refine iff_of_true ⟨?_, ?_, ?_, ?_⟩ (.inl isPath)
    · rwa [body]
    · rwa [body, sample]
    · simp [partsOf, body, sample]
    · simp [partsOf, body, sample, subsets, Parts.joined, Parts.subsetNames,
        Parts.writtenSample, stripped]
  | false =>
    rw [Printed, isPath, or_iff_right Bool.false_ne_true]
    constructor
    · rintro ⟨-, hasOther, numbers, same⟩
      obtain ⟨noHub, whole⟩ :=
        noHub_of_count_le decimals paths isPath numbers (Nat.le_of_eq (congrArg _ same))
      refine ⟨noHub, ?_⟩
      rw [partsOf_of_whole paths noHub whole] at numbers same
      rw [afterHub_of_noHub paths noHub] at hasOther
      cases isSplit : splitLast ['#'] text with
      | none =>
        rw [cutSample_of_none paths isSplit] at hasOther whole
        rw [isPath, or_iff_right Bool.false_ne_true] at whole
        exact ⟨hasOther, whole⟩
      | some halves =>
        rw [cutSample_of_some paths isPath isSplit] at hasOther whole numbers same
        obtain ⟨number, isNumber⟩ := numbers halves.2 rfl
        obtain ⟨written, isWritten⟩ := exists_strOf decimals isNumber
        -- the last number sign cuts the written text where it is joined
        have again : splitLast ['#'] text = some (strip isBlank halves.1, written) := by
          rw [same]
          simp only [Parts.joined, Parts.subsetNames, Parts.writtenSample, isNumber,
            Option.bind_some, isWritten, Option.map_some, Option.getD_some, Option.map_none,
            Option.getD_none, intercalate_nil, append_nil]
          exact splitLast_singleton _ (not_mem_strOf isWritten (by decide) (by decide))
        rw [isSplit, Option.some.injEq] at again
        have isName := (congrArg Prod.fst again).symm
        have isSample := congrArg Prod.snd again
        exact ⟨hasOther, isName, whole, number, isSample ▸ isWritten⟩
    · rintro ⟨noHub, printed⟩
      rw [afterHub_of_noHub paths noHub]
      cases isSplit : splitLast ['#'] text with
      | none =>
        rw [isSplit] at printed
        have cut := cutSample_of_none paths isSplit
        have whole : paths.pathExists (cutSample paths text).1 = true ∨
            ':' ∉ (cutSample paths text).1 := by
          rw [cut]
          exact .inr printed.2
        rw [partsOf_of_whole paths noHub whole, cut]
        refine ⟨printed.1, printed.1, fun sample isSample => absurd isSample (by simp), ?_⟩
        simp [Parts.joined, Parts.subsetNames, Parts.writtenSample, stripped]
      | some halves =>
        rw [isSplit] at printed
        obtain ⟨hasName, isName, whole, number, isSample⟩ := printed
        have cut := cutSample_of_some paths isPath isSplit
        have isText := eq_append_of_splitLast isSplit
        have nonempty : text ≠ [] := by
          rw [isText]
          simp
        have whole : paths.pathExists (cutSample paths text).1 = true ∨
            ':' ∉ (cutSample paths text).1 := by
          rwa [cut]
        rw [partsOf_of_whole paths noHub whole, cut]
        have isNumber := intOf_strOf decimals isSample
        refine ⟨nonempty, hasName, fun sample same => ⟨number, ?_⟩, ?_⟩
        · cases same
          exact isNumber
        · simp [Parts.joined, Parts.subsetNames, Parts.writtenSample, isName, isNumber, isSample]
          exact isText

/-! ## Round trips -/

/-- Names that are not empty, stripped and free of separators. -/
structure DatasetSyntax.Plain (source : DatasetSyntax) : Prop where
  dataset_ne_nil : source.dataset ≠ []
  dataset_stripped : strip isBlank source.dataset = source.dataset
  dataset_free : ':' ∉ source.dataset ∧ '#' ∉ source.dataset
  subset_ne_nil : ∀ subset ∈ source.subsets, subset ≠ []
  subset_stripped : ∀ subset ∈ source.subsets, strip isBlank subset = subset
  subset_free : ∀ subset ∈ source.subsets, ':' ∉ subset ∧ '#' ∉ subset ∧ '/' ∉ subset

/-- The value is written, and parsing what is written finds its name, subsets and sample. -/
def RoundTrips (source : DatasetSyntax) : Prop :=
  ∃ raw found, source.getRaw = .ok raw ∧ DatasetSyntax.parse decimals paths raw = .ok found ∧
    found.dataset = source.dataset ∧ found.subsets = source.subsets ∧
    found.datasetSample = source.datasetSample

/-- What is found in a text is written as a text that is parsed and written as itsource. -/
def Settles (text : Text) : Prop :=
  ∃ found raw, DatasetSyntax.parse decimals paths text = .ok found ∧ found.getRaw = .ok raw ∧
    ∃ again, DatasetSyntax.parse decimals paths raw = .ok again ∧ again.getRaw = .ok raw

theorem mem_intercalate {separator char : Char} {texts : List Text}
    (isIn : char ∈ [separator].intercalate texts) :
    char = separator ∨ ∃ text ∈ texts, char ∈ text := by
  induction texts with
  | nil => simp at isIn
  | cons first rest ih =>
    cases rest with
    | nil => exact .inr ⟨first, mem_cons_self, by simpa using isIn⟩
    | cons second rest =>
      rw [intercalate_cons_cons, mem_append, mem_append] at isIn
      rcases isIn with (isIn | isIn) | isIn
      · exact .inr ⟨first, mem_cons_self, isIn⟩
      · exact .inl (mem_singleton.mp isIn)
      · exact (ih isIn).imp id fun ⟨text, inRest, isIn⟩ =>
          ⟨text, mem_cons_of_mem _ inRest, isIn⟩

variable {decimals paths} in
theorem DatasetSyntax.Plain.free {source : DatasetSyntax} (plain : source.Plain) :
    ':' ∉ source.dataset ++ ['/'].intercalate source.subsets ∧
      '#' ∉ source.dataset ++ ['/'].intercalate source.subsets := by
  constructor <;> rw [mem_append, not_or]
  · refine ⟨plain.dataset_free.1, fun isIn => ?_⟩
    rcases mem_intercalate isIn with slash | ⟨subset, inSubsets, isIn⟩
    · cases slash
    · exact (plain.subset_free subset inSubsets).1 isIn
  · refine ⟨plain.dataset_free.2, fun isIn => ?_⟩
    rcases mem_intercalate isIn with slash | ⟨subset, inSubsets, isIn⟩
    · cases slash
    · exact (plain.subset_free subset inSubsets).2.1 isIn

theorem noHub_of_noColon (noColon : ':' ∉ text) : ¬ [':', ':'] <:+: text := by
  rintro ⟨before, after, rfl⟩
  exact noColon (by simp)

theorem parse_eq_ok_iff_of_noColon (noColon : ':' ∉ text) (found : DatasetSyntax) :
    DatasetSyntax.parse decimals paths text = .ok found ↔
      text ≠ [] ∧ (cutSample paths text).1 ≠ [] ∧
        (cutSample paths text).2.mapM (intOf decimals) = some found.datasetSample ∧
        found.dataset = strip isBlank (cutSample paths text).1 ∧ found.subsets = [] ∧
        found.useHf = if paths.pathExists text then none
          else hubFlag ((splitFirst [':', ':'] text).map Prod.fst) := by
  have noHub := noHub_of_noColon noColon
  have whole : ':' ∉ (cutSample paths text).1 := by
    have fewer := count_cutSample_le paths text
    rw [count_eq_zero.mpr noColon] at fewer
    exact count_eq_zero.mp (Nat.le_zero.mp fewer)
  rw [parse_eq_ok_iff, afterHub_of_noHub paths noHub, partsOf_of_whole paths noHub (.inr whole)]
  rfl

/-- A plain value comes back exactly when it has no subsets, and its number can be written
and does not complete an existing path. -/
theorem roundTrips_iff_of_plain {source : DatasetSyntax} (plain : source.Plain) :
    RoundTrips decimals paths source ↔
      source.subsets = [] ∧ ∀ number, source.datasetSample = some number →
        ∃ sample, strOf number = some sample ∧
          paths.pathExists (source.dataset ++ '#' :: sample) = false := by
  obtain ⟨noColon, noSharp⟩ := plain.free
  have sampled : ∀ {number : ℤ} {sample : Text}, strOf number = some sample →
      ':' ∉ source.dataset ++ ['/'].intercalate source.subsets ++ '#' :: sample := by
    intro number sample isSample
    rw [mem_append, mem_cons, not_or, not_or]
    exact ⟨noColon, by decide, not_mem_strOf isSample (by decide) (by decide)⟩
  constructor
  · rintro ⟨raw, found, isRaw, parsed, -, sameSubsets, sameSample⟩
    unfold DatasetSyntax.getRaw at isRaw
    dsimp only at isRaw
    cases hasSample : source.datasetSample with
    | none =>
      rw [hasSample, Except.ok.injEq] at isRaw
      subst isRaw
      obtain ⟨-, -, -, -, noSubsets, -⟩ :=
        (parse_eq_ok_iff_of_noColon decimals paths noColon found).mp parsed
      exact ⟨sameSubsets ▸ noSubsets, fun number isNumber => absurd isNumber (by simp)⟩
    | some number =>
      rw [hasSample] at isRaw
      dsimp only at isRaw
      cases isSample : strOf number with
      | none =>
        rw [isSample] at isRaw
        cases isRaw
      | some sample =>
        rw [isSample, Except.ok.injEq] at isRaw
        subst isRaw
        obtain ⟨-, -, isCount, -, noSubsets, -⟩ :=
          (parse_eq_ok_iff_of_noColon decimals paths (sampled isSample) found).mp parsed
        have subsets : source.subsets = [] := sameSubsets ▸ noSubsets
        refine ⟨subsets, fun number' isNumber => ⟨sample, ?_, ?_⟩⟩
        · cases isNumber
          exact isSample
        · rw [subsets, intercalate_nil, append_nil] at isCount
          -- an existing path has no sample
          refine Bool.eq_false_iff.mpr fun isPath => ?_
          rw [(partsOf_of_exists paths isPath).2.1, sameSample, hasSample] at isCount
          cases isCount
  · rintro ⟨noSubsets, numbers⟩
    rw [noSubsets, intercalate_nil, append_nil] at noColon noSharp
    cases hasSample : source.datasetSample with
    | none =>
      have cut : cutSample paths source.dataset = (source.dataset, none) :=
        cutSample_of_none paths ((splitLast_singleton_eq_none_iff '#' _).mpr noSharp)
      refine ⟨source.dataset, ⟨_, _, none, _⟩, ?_,
        (parse_eq_ok_iff_of_noColon decimals paths noColon _).mpr
          ⟨plain.dataset_ne_nil, ?_, ?_, rfl, rfl, rfl⟩, ?_, noSubsets.symm, hasSample.symm⟩
      · simp [DatasetSyntax.getRaw, hasSample, noSubsets]
      · rw [cut]
        exact plain.dataset_ne_nil
      · rw [cut]
        rfl
      · rw [cut]
        exact plain.dataset_stripped
    | some number =>
      obtain ⟨sample, isSample, notPath⟩ := numbers number hasSample
      have noColon' := sampled isSample
      rw [noSubsets, intercalate_nil, append_nil] at noColon'
      have cut : cutSample paths (source.dataset ++ '#' :: sample) =
          (source.dataset, some sample) :=
        cutSample_of_some paths notPath
          (splitLast_singleton _ (not_mem_strOf isSample (by decide) (by decide)))
      refine ⟨source.dataset ++ '#' :: sample, ⟨_, _, some number, _⟩, ?_,
        (parse_eq_ok_iff_of_noColon decimals paths noColon' _).mpr
          ⟨by simp, ?_, ?_, rfl, rfl, rfl⟩, ?_, noSubsets.symm, hasSample.symm⟩
      · simp [DatasetSyntax.getRaw, hasSample, noSubsets, isSample]
      · rw [cut]
        exact plain.dataset_ne_nil
      · rw [cut]
        exact Option.map_eq_some_iff.mpr ⟨number, intOf_strOf decimals isSample, rfl⟩
      · rw [cut]
        exact plain.dataset_stripped

/-- A text that is accepted settles exactly when its joined parts are printed. -/
theorem settles_iff_of_accepted {found : DatasetSyntax}
    (parsed : DatasetSyntax.parse decimals paths text = .ok found) :
    Settles decimals paths text ↔ Printed paths ((partsOf paths text).joined decimals) := by
  have isRaw := getRaw_of_parse decimals paths parsed
  obtain ⟨-, -, numbers, -⟩ := (reprint_eq_ok_iff decimals paths text _).mp
    (bind_eq_ok.mpr ⟨found, parsed, isRaw⟩)
  rw [← reprint_self_iff decimals paths (strip_joined decimals numbers)]
  constructor
  · rintro ⟨found', raw, parsed', isRaw', again, parsedAgain, isAgain⟩
    rw [parsed, Except.ok.injEq] at parsed'
    rw [← parsed', isRaw, Except.ok.injEq] at isRaw'
    subst isRaw'
    exact bind_eq_ok.mpr ⟨again, parsedAgain, isAgain⟩
  · intro settled
    obtain ⟨again, parsedAgain, isAgain⟩ := bind_eq_ok.mp settled
    exact ⟨found, _, parsed, isRaw, again, parsedAgain, isAgain⟩

/-- **Which values come back, and which accepted texts settle.** -/
theorem rawRoundTrips_iff :
    (∀ source : DatasetSyntax, source.Plain →
      (RoundTrips decimals paths source ↔
        source.subsets = [] ∧ ∀ number, source.datasetSample = some number →
          ∃ sample, strOf number = some sample ∧
            paths.pathExists (source.dataset ++ '#' :: sample) = false)) ∧
      ∀ text found, DatasetSyntax.parse decimals paths text = .ok found →
        (Settles decimals paths text ↔ Printed paths ((partsOf paths text).joined decimals)) :=
  ⟨fun _ plain => roundTrips_iff_of_plain decimals paths plain,
    fun _ _ parsed => settles_iff_of_accepted decimals paths parsed⟩

end Parsing

def noPaths : LocalPaths where
  pathExists _ := false
  pathExists_nil := rfl

def oneSubset : DatasetSyntax := ⟨"ms-data".toList, ["default".toList], none, none⟩

theorem oneSubset_plain : oneSubset.Plain where
  dataset_ne_nil := by decide
  dataset_stripped := by decide
  dataset_free := by decide
  subset_ne_nil := by decide
  subset_stripped := by decide
  subset_free := by decide

/-- A subset is written without the colon, so it is parsed as a part of the name. -/
theorem oneSubset_lost :
    oneSubset.getRaw = .ok "ms-datadefault".toList ∧
      ¬ ∀ source : DatasetSyntax, source.Plain → RoundTrips asciiDecimals noPaths source := by
  refine ⟨by decide, fun roundTrips => ?_⟩
  obtain ⟨raw, found, isRaw, parsed, -, subsets, -⟩ := roundTrips oneSubset oneSubset_plain
  have isText : raw = "ms-datadefault".toList := by
    cases isRaw
    decide
  rw [isText, parse_eq_ok_iff_of_noColon asciiDecimals noPaths (by decide)] at parsed
  obtain ⟨-, -, -, -, noSubsets, -⟩ := parsed
  rw [noSubsets] at subsets
  exact absurd subsets (by decide)

theorem hubText_parsed :
    DatasetSyntax.parse asciiDecimals noPaths "hf::ms-data # 5_00".toList =
      .ok ⟨"ms-data".toList, [], some 500, some true⟩ := by
  rw [parse_eq_ok_iff]
  refine ⟨by decide, by decide, by decide, by decide, by decide, by decide⟩

/-- A name and a sample come back, and a text with a hub settles. -/
theorem sampled_roundTrips :
    RoundTrips asciiDecimals noPaths ⟨"ms-data".toList, [], some 500, none⟩ ∧
      (Settles asciiDecimals noPaths "hf::ms-data # 5_00".toList ↔
        Printed noPaths ((partsOf noPaths "hf::ms-data # 5_00".toList).joined asciiDecimals)) := by
  refine ⟨((rawRoundTrips_iff asciiDecimals noPaths).1 _ ?_).mpr ⟨rfl, ?_⟩,
    (rawRoundTrips_iff asciiDecimals noPaths).2 _ _ hubText_parsed⟩
  · constructor <;> decide
  · rintro number ⟨⟩
    exact ⟨"500".toList, by decide, rfl⟩

end Geobench.Dataset
