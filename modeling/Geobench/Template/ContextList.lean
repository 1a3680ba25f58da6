import Geobench.Library.Text
import Mathlib.Data.List.Chain

/-!
# Contexts that are simplified

A prompt is a list of texts and token ids, each with a scale of the loss. Before it is tokenized
`simplifyContextList` cuts the special tokens out of the texts, puts the media in their places and
merges texts of the same scale that follow each other.

**`simplifyContextList_spread`**: without media, each character and each token id stays where it is
and keeps its scale, and texts that follow each other have different scales.
-/

namespace Geobench.Template

open Library List

/-! ## Splitting at the special tokens -/

/-- What is before the first place of a delimiter, the delimiter, and what is after it. Where
several delimiters start the first one counts. -/
def findDelimiter (delimiters : List Text) : Text → Option (Text × Text × Text)
  | [] => none
  | char :: rest =>
    match delimiters.find? (·.isPrefixOf (char :: rest)) with
    | some delimiter => some ([], delimiter, (char :: rest).drop delimiter.length)
    | none => (findDelimiter delimiters rest).map fun parts => (char :: parts.1, parts.2)

def splitAtDelimiters (delimiters : List Text) : ℕ → Text → List Text
  | 0, text => [text]
  | fuel + 1, text =>
    match findDelimiter delimiters text with
    | none => [text]
    | some (before, delimiter, after) =>
      before :: delimiter :: splitAtDelimiters delimiters fuel after

/-- `_split_str_by_regex`: delimiters and the texts after them, the first after no delimiter. -/
def splitStrByRegex (delimiters : List Text) (text : Text) : List Text :=
  match splitAtDelimiters delimiters text.length text with
  | [] :: rest => rest
  | parts => [] :: parts

/-- `zip(parts[::2], parts[1::2])` -/
def pairsOf : List Text → List (Text × Text)
  | key :: content :: rest => (key, content) :: pairsOf rest
  | _ => []

def splitStrPartsBy (text : Text) (delimiters : List Text) : List (Text × Text) :=
  pairsOf (splitStrByRegex delimiters text)

/-! ## Contexts -/

inductive Context where
  | text (content : Text)
  | tokens (ids : List ℤ)
  deriving DecidableEq

def specialTokens : List Text :=
  ["<image>".toList, "<video>".toList, "<audio>".toList, "<bbox>".toList, "<ref-object>".toList,
    "<cot-process>".toList, "<start-image>".toList]

variable {K : Type}

/-- `_split_special_tokens`, for one context -/
def splitContext (item : Context × K) : List (Context × K) :=
  match item.1 with
  | .text content =>
    let contexts := (splitStrPartsBy content specialTokens).flatMap fun part => [part.1, part.2]
    (contexts.filter (· ≠ [])).map fun content => (.text content, item.2)
  | .tokens _ => [item]

def splitSpecialTokens (contextList : List (Context × K)) : List (Context × K) :=
  contextList.flatMap splitContext

inductive MediaType where
  | image
  | video
  | audio

/-- How many media and boxes a sample has, and what a template puts in their places. -/
structure MediaInputs where
  isMultimodal : Bool
  swiftBackend : Bool
  isPrm : Bool
  images : ℕ
  videos : ℕ
  audios : ℕ
  refs : ℕ
  bboxes : ℕ
  replaceTag : MediaType → ℕ → List Context
  replaceRef : ℕ → List Context
  replaceBbox : ℕ → List Context
  replaceCotProcess : List Context

/-- There is nothing that could be put in the place of a special token. -/
structure MediaInputs.NoMedia (inputs : MediaInputs) : Prop where
  images : inputs.images = 0
  videos : inputs.videos = 0
  audios : inputs.audios = 0
  refs : inputs.refs = 0
  bboxes : inputs.bboxes = 0
  isPrm : inputs.isPrm = false

/-- How many of the media are in their places. -/
structure MediaIndexes where
  image : ℕ
  video : ℕ
  audio : ℕ
  ref : ℕ
  bbox : ℕ

section Simplify

variable [Zero K] [One K]

/-- `_pre_tokenize_images`, for one context -/
def preTokenizeImage (inputs : MediaInputs) (indexes : MediaIndexes) (item : Context × K) :
    List (Context × K) × MediaIndexes :=
  if item.1 = .text "<image>".toList ∧ inputs.isMultimodal ∧ indexes.image < inputs.images then
    ((inputs.replaceTag .image indexes.image).map fun context =>
        (context, if inputs.swiftBackend then 0 else 1),
      { indexes with image := indexes.image + 1 })
  else ([item], indexes)

/-- The loop of `_pre_tokenize` over the other media, for one context. -/
def preTokenizeOther (inputs : MediaInputs) (indexes : MediaIndexes) (item : Context × K) :
    List (Context × K) × MediaIndexes :=
  if item.1 = .text "<video>".toList ∧ inputs.isMultimodal ∧ indexes.video < inputs.videos then
    ((inputs.replaceTag .video indexes.video).map fun context => (context, 0),
      { indexes with video := indexes.video + 1 })
  else if item.1 = .text "<audio>".toList ∧ inputs.isMultimodal ∧
      indexes.audio < inputs.audios then
    ((inputs.replaceTag .audio indexes.audio).map fun context => (context, 0),
      { indexes with audio := indexes.audio + 1 })
  else if item.1 = .text "<ref-object>".toList ∧ indexes.ref < inputs.refs then
    ((inputs.replaceRef indexes.ref).map fun context => (context, item.2),
      { indexes with ref := indexes.ref + 1 })
  else if item.1 = .text "<bbox>".toList ∧ indexes.bbox < inputs.bboxes then
    ((inputs.replaceBbox indexes.bbox).map fun context => (context, item.2),
      { indexes with bbox := indexes.bbox + 1 })
  else if item.1 = .text "<cot-process>".toList ∧ inputs.isPrm then
    (inputs.replaceCotProcess.map fun context => (context, item.2), indexes)
  else ([item], indexes)

/-- Replace contexts one after the other. -/
def preTokenizeWith (replace : MediaIndexes → Context × K → List (Context × K) × MediaIndexes)
    (indexes : MediaIndexes) : List (Context × K) → List (Context × K)
  | [] => []
  | item :: rest =>
    (replace indexes item).1 ++ preTokenizeWith replace (replace indexes item).2 rest

/-- `_pre_tokenize`, with the places of the references and boxes to start at -/
def preTokenize (inputs : MediaInputs) (ref bbox : ℕ) (contextList : List (Context × K)) :
    List (Context × K) :=
  let start : MediaIndexes := ⟨0, 0, 0, ref, bbox⟩
  preTokenizeWith (preTokenizeOther inputs) start
    (preTokenizeWith (preTokenizeImage inputs) start contextList)

/-! ## Merging texts -/

/-- The contexts that are done, and the texts that are to be one context. -/
structure Merging (K : Type) where
  res : List (Context × K)
  temp : List Text
  tempLossScale : K

/-- The contexts, with the texts that are to be one. -/
def Merging.flushed (merging : Merging K) : List (Context × K) :=
  if merging.temp ≠ [] then
    merging.res ++ [(.text merging.temp.flatten, merging.tempLossScale)]
  else merging.res

def mergeStep [DecidableEq K] (merging : Merging K) (item : Context × K) : Merging K :=
  match item.1 with
  | .text content =>
    if item.2 = merging.tempLossScale then
      { merging with temp := merging.temp ++ [content] }
    else { res := merging.flushed, temp := [content], tempLossScale := item.2 }
  | .tokens _ => { res := merging.flushed ++ [item], temp := [], tempLossScale := item.2 }

/-- `_simplify_context_list` -/
def simplifyContextList [DecidableEq K] (inputs : MediaInputs) (ref bbox : ℕ)
    (contextList : List Context) (lossScaleList : List K) : List (Context × K) :=
  let contexts := preTokenize inputs ref bbox (splitSpecialTokens (contextList.zip lossScaleList))
  (contexts.foldl mergeStep ⟨[], [], 0⟩).flushed

end Simplify

/-! ## Characters and token ids with their scales -/

/-- A character or a token id. -/
inductive Atom where
  | char (value : Char)
  | token (id : ℤ)
  deriving DecidableEq

def Context.atoms : Context → List Atom
  | .text content => content.map .char
  | .tokens ids => ids.map .token

/-- The characters and token ids of the contexts, each with its scale. -/
def spread (contextList : List (Context × K)) : List (Atom × K) :=
  contextList.flatMap fun item => item.1.atoms.map fun atom => (atom, item.2)

theorem spread_append (first rest : List (Context × K)) :
    spread (first ++ rest) = spread first ++ spread rest := flatMap_append

theorem spread_text (content : Text) (scale : K) :
    spread [(.text content, scale)] = content.map fun char => (Atom.char char, scale) := by
  rw [spread, flatMap_singleton, Context.atoms, map_map]
  rfl

theorem spread_texts (contents : List Text) (scale : K) :
    spread (contents.map fun content => (Context.text content, scale)) =
      contents.flatten.map fun char => (Atom.char char, scale) := by
  induction contents with
  | nil => rfl
  | cons content rest ih =>
    rw [map_cons, ← singleton_append, spread_append, spread_text, ih, flatten_cons, map_append]

/-! ## Splitting keeps the text -/

theorem findDelimiter_eq_some {delimiters : List Text} {text before delimiter after : Text}
    (found : findDelimiter delimiters text = some (before, delimiter, after)) :
    text = before ++ (delimiter ++ after) ∧ delimiter ∈ delimiters := by
  induction text generalizing before with
  | nil => cases found
  | cons char rest ih =>
    rw [findDelimiter] at found
    cases isHere : delimiters.find? (·.isPrefixOf (char :: rest)) with
    | some here =>
      simp only [isHere, Option.some.injEq, Prod.mk.injEq] at found
      obtain ⟨rfl, rfl, rfl⟩ := found
      have isPrefix := @find?_some _ (fun tag : Text => tag.isPrefixOf (char :: rest)) _ _ isHere
      obtain ⟨later, isRest⟩ := List.isPrefixOf_iff_prefix.mp isPrefix
      refine ⟨?_, mem_of_find?_eq_some isHere⟩
      rw [← isRest, drop_left, nil_append]
    | none =>
      simp only [isHere, Option.map_eq_some_iff] at found
      obtain ⟨⟨first, parts⟩, found, same⟩ := found
      obtain ⟨rfl, rfl⟩ := Prod.mk.inj same
      obtain ⟨isRest, isIn⟩ := ih found
      exact ⟨by rw [cons_append, ← isRest], isIn⟩

theorem flatten_pairsOf (delimiters : List Text) (fuel : ℕ) (key text : Text) :
    ((pairsOf (key :: splitAtDelimiters delimiters fuel text)).flatMap fun part =>
      [part.1, part.2]).flatten = key ++ text := by
  induction fuel generalizing key text with
  | zero => simp [splitAtDelimiters, pairsOf]
  | succ fuel ih =>
    rw [splitAtDelimiters]
    cases found : findDelimiter delimiters text with
    | none => simp [pairsOf]
    | some parts =>
      obtain ⟨before, delimiter, after⟩ := parts
      dsimp only
      rw [pairsOf, flatMap_cons, flatten_append, ih, (findDelimiter_eq_some found).1]
      simp

theorem flatten_splitStrPartsBy (text : Text) (delimiters : List Text) :
    ((splitStrPartsBy text delimiters).flatMap fun part => [part.1, part.2]).flatten = text := by
  have all := flatten_pairsOf delimiters text.length [] text
  rw [nil_append] at all
  rw [splitStrPartsBy, splitStrByRegex]
  split
  · rename_i rest isParts
    cases isFuel : text.length with
    | zero =>
      rw [isFuel, splitAtDelimiters, List.cons.injEq] at isParts
      rw [isParts.1, ← isParts.2]
      rfl
    | succ fuel =>
      rw [isFuel, splitAtDelimiters] at isParts
      cases found : findDelimiter delimiters text with
      | none =>
        rw [found, List.cons.injEq] at isParts
        rw [isParts.1, length_nil] at isFuel
        cases isFuel
      | some parts =>
        obtain ⟨before, delimiter, after⟩ := parts
        rw [found, List.cons.injEq] at isParts
        rw [← isParts.2, flatten_pairsOf, (findDelimiter_eq_some found).1, isParts.1]
        rfl
  · exact all

theorem spread_splitContext (item : Context × K) : spread (splitContext item) = spread [item] := by
  obtain ⟨context, scale⟩ := item
  cases context with
  | tokens ids => rfl
  | text content =>
    have kept : ∀ contents : List Text,
        (contents.filter (· ≠ [])).flatten = contents.flatten := by
      intro contents
      induction contents with
      | nil => rfl
      | cons first rest ih =>
        by_cases empty : first = [] <;> simp_all
    rw [splitContext]
    dsimp only
    rw [spread_texts, kept, flatten_splitStrPartsBy, spread_text]

theorem spread_splitSpecialTokens (contextList : List (Context × K)) :
    spread (splitSpecialTokens contextList) = spread contextList := by
  induction contextList with
  | nil => rfl
  | cons item rest ih =>
    rw [splitSpecialTokens, flatMap_cons, spread_append, spread_splitContext]
    rw [splitSpecialTokens] at ih
    rw [ih, ← spread_append]
    rfl

/-! ## Without media nothing is replaced -/

theorem preTokenizeWith_eq_self
    {replace : MediaIndexes → Context × K → List (Context × K) × MediaIndexes}
    (kept : ∀ indexes item, (replace indexes item).1 = [item]) (indexes : MediaIndexes)
    (contextList : List (Context × K)) :
    preTokenizeWith replace indexes contextList = contextList := by
  induction contextList generalizing indexes with
  | nil => rfl
  | cons item rest ih => rw [preTokenizeWith, kept, ih, singleton_append]

theorem preTokenize_of_noMedia [Zero K] [One K] {inputs : MediaInputs}
    (noMedia : inputs.NoMedia) (ref bbox : ℕ) (contextList : List (Context × K)) :
    preTokenize inputs ref bbox contextList = contextList := by
  rw [preTokenize, preTokenizeWith_eq_self, preTokenizeWith_eq_self]
  · intro indexes item
    simp [preTokenizeImage, noMedia.images]
  · intro indexes item
    simp [preTokenizeOther, noMedia.videos, noMedia.audios, noMedia.refs, noMedia.bboxes,
      noMedia.isPrm]

/-! ## Merging keeps the scales -/

section Merge

variable [DecidableEq K]

def Context.IsText (context : Context) : Prop := ∃ content, context = .text content

/-- No two texts of one scale follow each other. -/
def Separated (contextList : List (Context × K)) : Prop :=
  contextList.IsChain fun first second =>
    first.1.IsText → second.1.IsText → first.2 ≠ second.2

omit [DecidableEq K] in
theorem Separated.concat {contextList : List (Context × K)} (separated : Separated contextList)
    {item : Context × K} (differs : ∀ last ∈ contextList.getLast?, last.1.IsText →
      item.1.IsText → last.2 ≠ item.2) : Separated (contextList ++ [item]) := by
  refine isChain_append.mpr ⟨separated, isChain_singleton item, ?_⟩
  intro last isLast first isFirst
  rw [head?_cons, Option.mem_def, Option.some.injEq] at isFirst
  exact isFirst ▸ differs last isLast

/-- The contexts that are done are separated, and a text at their end has another scale than the
texts that are to follow, of which there are some. -/
structure Merging.Good (merging : Merging K) : Prop where
  separated : Separated merging.res
  last : ∀ last ∈ merging.res.getLast?, last.1.IsText →
    last.2 ≠ merging.tempLossScale ∧ merging.temp ≠ []

omit [DecidableEq K] in
theorem Merging.Good.flushed {merging : Merging K} (good : merging.Good) :
    Separated merging.flushed ∧ ∀ last ∈ merging.flushed.getLast?, last.1.IsText →
      merging.temp ≠ [] ∧ last.2 = merging.tempLossScale := by
  rw [Merging.flushed]
  split
  · rename_i some
    refine ⟨good.separated.concat fun last isLast isText _ => (good.last last isLast isText).1, ?_⟩
    intro last isLast _
    rw [getLast?_concat, Option.mem_def, Option.some.injEq] at isLast
    exact ⟨some, isLast ▸ rfl⟩
  · rename_i none
    exact ⟨good.separated, fun last isLast isText => absurd (good.last last isLast isText).2 none⟩

theorem Merging.Good.mergeStep {merging : Merging K} (good : merging.Good) (item : Context × K) :
    (mergeStep merging item).Good := by
  obtain ⟨context, scale⟩ := item
  obtain ⟨separated, last⟩ := good.flushed
  cases context with
  | text content =>
    rw [Template.mergeStep]
    dsimp only
    split
    · refine ⟨good.separated, fun last isLast isText => ?_⟩
      exact ⟨(good.last last isLast isText).1, by simp⟩
    · rename_i differs
      refine ⟨separated, fun other isLast isText => ⟨?_, by simp⟩⟩
      rw [(last other isLast isText).2]
      exact fun same => differs same.symm
  | tokens ids =>
    rw [Template.mergeStep]
    refine ⟨separated.concat fun _ _ _ isText => ?_, fun other isLast isText => ?_⟩
    · obtain ⟨content, same⟩ := isText
      cases same
    · rw [getLast?_concat, Option.mem_def, Option.some.injEq] at isLast
      obtain ⟨content, same⟩ := isText
      rw [← isLast] at same
      cases same

/-- A step adds the characters and token ids of its context. -/
theorem spread_mergeStep (merging : Merging K) (item : Context × K) :
    spread (mergeStep merging item).flushed = spread merging.flushed ++ spread [item] := by
  obtain ⟨context, scale⟩ := item
  cases context with
  | text content =>
    rw [Template.mergeStep]
    dsimp only
    split
    · rename_i same
      rw [Merging.flushed, if_pos (by simp), spread_append, spread_text, flatten_append,
        map_append, flatten_singleton, ← append_assoc, spread_text, same]
      refine congrArg (· ++ content.map fun char => (Atom.char char, merging.tempLossScale)) ?_
      rw [Merging.flushed]
      split
      · rw [spread_append, spread_text]
      · rename_i none
        rw [not_not] at none
        simp [none]
    · rw [Merging.flushed, if_pos (by simp), spread_append]
      simp
  | tokens ids =>
    rw [Template.mergeStep, Merging.flushed, if_neg (by simp), spread_append]

theorem spread_foldl_mergeStep (contextList : List (Context × K)) (merging : Merging K) :
    spread (contextList.foldl mergeStep merging).flushed =
      spread merging.flushed ++ spread contextList := by
  induction contextList generalizing merging with
  | nil => exact (append_nil _).symm
  | cons item rest ih =>
    rw [foldl_cons, ih, spread_mergeStep, append_assoc, ← spread_append]
    rfl

theorem Merging.Good.foldl {merging : Merging K} (good : merging.Good)
    (contextList : List (Context × K)) : (contextList.foldl Template.mergeStep merging).Good := by
  induction contextList generalizing merging with
  | nil => exact good
  | cons item rest ih => exact ih (good.mergeStep item)

/-- **The characters and token ids stay in their order and keep their scales**, and texts that
follow each other have different ones. -/
theorem simplifyContextList_spread [Zero K] [One K] {inputs : MediaInputs}
    (noMedia : inputs.NoMedia) (ref bbox : ℕ) (contextList : List Context)
    (lossScaleList : List K) :
    spread (simplifyContextList inputs ref bbox contextList lossScaleList) =
        spread (contextList.zip lossScaleList) ∧
      Separated (simplifyContextList inputs ref bbox contextList lossScaleList) := by
  have start : (⟨[], [], 0⟩ : Merging K).Good :=
    ⟨isChain_nil, fun _ isLast => by cases isLast⟩
  rw [simplifyContextList]
  refine ⟨?_, ((start.foldl _).flushed).1⟩
  rw [spread_foldl_mergeStep, preTokenize_of_noMedia noMedia, spread_splitSpecialTokens]
  rfl

def plainInputs : MediaInputs where
  isMultimodal := false
  swiftBackend := true
  isPrm := false
  images := 0
  videos := 0
  audios := 0
  refs := 0
  bboxes := 0
  replaceTag := fun _ _ => []
  replaceRef := fun _ => []
  replaceBbox := fun _ => []
  replaceCotProcess := []

/-- A special token among texts of one scale, and token ids of another. -/
theorem simplifyContextList_spread_mixed :
    simplifyContextList plainInputs 0 0
        [.text "a<image>b".toList, .text ['c'], .tokens [7]] [1, 1, (0 : ℕ)] =
          [(.text "a<image>bc".toList, 1), (.tokens [7], 0)] ∧
      Separated (simplifyContextList plainInputs 0 0
        [.text "a<image>b".toList, .text ['c'], .tokens [7]] [1, 1, (0 : ℕ)]) :=
  ⟨by decide, (simplifyContextList_spread ⟨rfl, rfl, rfl, rfl, rfl, rfl⟩ 0 0
    [.text "a<image>b".toList, .text ['c'], .tokens [7]] [1, 1, (0 : ℕ)]).2⟩

end Merge

end Geobench.Template
