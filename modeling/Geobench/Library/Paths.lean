import Geobench.Library.Text

/-!
# Paths

A path is split at its slashes, and neither an empty part nor `.` counts. Written with slashes
between them, parts that count are read back (`pathParts_pathText`).

The name of a path is its last part, and a name is its stem and its suffix.
-/

namespace Geobench.Library

open List

/-- The part counts. -/
def IsPart (part : Text) : Prop := part ≠ [] ∧ part ≠ ['.'] ∧ '/' ∉ part

/-- The parts of a path, without a slash at the start. -/
def pathParts (path : Text) : List Text :=
  (path.splitOn '/').filter fun part => part ≠ [] ∧ part ≠ ['.']

/-- `str(path)` of a path with no slash at the start. -/
def pathText (parts : List Text) : Text :=
  if parts = [] then ['.'] else ['/'].intercalate parts

/-- `Path(path).name` -/
def pathName (path : Text) : Text := (pathParts path).getLast?.getD []

/-- The stem and the suffix of a name. A dot at the start or at the end starts no suffix. -/
def splitSuffix (name : Text) : Text × Text :=
  match splitLast ['.'] name with
  | some (before, after) =>
    if before = [] ∨ after = [] then (name, []) else (before, '.' :: after)
  | none => (name, [])

/-- `path.stem`, of the name of the path -/
def stemOf (name : Text) : Text := (splitSuffix name).1

/-- `path.suffix`, of the name of the path -/
def suffixOf (name : Text) : Text := (splitSuffix name).2

/-! ## Parts -/

theorem pathParts_of_free {text : Text} (free : '/' ∉ text) :
    pathParts text = if text = [] ∨ text = ['.'] then [] else [text] := by
  rw [pathParts, splitOn_eq_singleton free, filter_cons, filter_nil]
  by_cases noPart : text = [] ∨ text = ['.']
  · rw [if_pos noPart, if_neg]
    rcases noPart with rfl | rfl <;> simp
  · rw [if_neg noPart, if_pos]
    rw [not_or] at noPart
    simp [noPart.1, noPart.2]

theorem isPart_of_mem {path part : Text} (isIn : part ∈ pathParts path) : IsPart part := by
  obtain ⟨isSplit, counts⟩ := mem_filter.mp isIn
  have counted : part ≠ [] ∧ part ≠ ['.'] := by simpa using counts
  refine ⟨counted.1, counted.2, fun slash => ?_⟩
  -- between two slashes there is no other
  have free : ∀ text : Text, ∀ part ∈ text.splitOn '/', '/' ∉ part := by
    intro text
    induction text with
    | nil => simp
    | cons char rest ih =>
      intro part isSplit
      rw [splitOn_cons_eq_if_modifyHead] at isSplit
      by_cases isSlash : char = '/'
      · rw [if_pos (by simpa using isSlash), mem_cons] at isSplit
        rcases isSplit with rfl | isSplit
        · exact not_mem_nil
        · exact ih part isSplit
      · rw [if_neg (by simpa using isSlash)] at isSplit
        obtain ⟨first, others, isRest⟩ :=
          exists_cons_of_ne_nil (splitOn_ne_nil '/' rest)
        rw [isRest, modifyHead_cons, mem_cons] at isSplit
        rcases isSplit with rfl | isSplit
        · have freeFirst := ih first (isRest ▸ mem_cons_self)
          exact not_mem_cons_of_ne_of_not_mem (fun same => isSlash same.symm) freeFirst
        · exact ih part (isRest ▸ mem_cons_of_mem first isSplit)
  exact free path part isSplit slash

/-- Parts that count are read back. -/
theorem pathParts_pathText {parts : List Text} (areParts : ∀ part ∈ parts, IsPart part) :
    pathParts (pathText parts) = parts := by
  by_cases empty : parts = []
  · subst empty
    rw [pathText, if_pos rfl]
    decide
  · rw [pathText, if_neg empty, pathParts,
      splitOn_intercalate '/' (fun part isIn => (areParts part isIn).2.2) empty]
    refine filter_eq_self.mpr fun part isIn => ?_
    simp [(areParts part isIn).1, (areParts part isIn).2.1]

theorem pathText_inj {first second : List Text} (areFirst : ∀ part ∈ first, IsPart part)
    (areSecond : ∀ part ∈ second, IsPart part) :
    pathText first = pathText second ↔ first = second := by
  refine ⟨fun same => ?_, congrArg pathText⟩
  rw [← pathParts_pathText areFirst, same, pathParts_pathText areSecond]

theorem slash_not_mem_pathName (path : Text) : '/' ∉ pathName path := by
  rw [pathName]
  cases isLast : (pathParts path).getLast? with
  | none => exact not_mem_nil
  | some name => exact (isPart_of_mem (mem_of_getLast? isLast)).2.2

/-! ## Stems and suffixes -/

theorem stemOf_append_suffixOf (name : Text) : stemOf name ++ suffixOf name = name := by
  rw [stemOf, suffixOf, splitSuffix]
  cases isSplit : splitLast ['.'] name with
  | none => exact append_nil name
  | some parts =>
    obtain ⟨before, after⟩ := parts
    dsimp only
    split
    · exact append_nil name
    · exact (eq_append_of_splitLast isSplit).symm

theorem suffixOf_cases (name : Text) :
    suffixOf name = [] ∨ ∃ after, after ≠ [] ∧ '.' ∉ after ∧ suffixOf name = '.' :: after := by
  rw [suffixOf, splitSuffix]
  cases isSplit : splitLast ['.'] name with
  | none => exact .inl rfl
  | some parts =>
    obtain ⟨before, after⟩ := parts
    dsimp only
    split
    · exact .inl rfl
    · rename_i noSuffix
      rw [not_or] at noSuffix
      refine .inr ⟨after, noSuffix.2, ?_, rfl⟩
      exact not_mem_of_splitLast isSplit

theorem stemOf_append_dot {before after : Text} (someBefore : before ≠ []) (someAfter : after ≠ [])
    (free : '.' ∉ after) : stemOf (before ++ '.' :: after) = before := by
  rw [stemOf, splitSuffix, splitLast_singleton before free]
  simp [someBefore, someAfter]

end Geobench.Library
