import Geobench.Library.Text

/-!
# Matches from the left

`findMatches` collects what a matcher captures, from the left and without overlaps, and `tagged`
matches the text between two tags. **`findMatches_intercalate`**: in a text of joined pieces that
match, the matches are the pieces.
-/

namespace Geobench.Library

open List

universe u v

/-! ## Tags -/

/-- A tag whose first character is nowhere else in it. -/
def Sharp (tag : Text) : Prop := ∀ char ∈ tag.head?, char ∉ tag.tail

instance (tag : Text) : Decidable (Sharp tag) :=
  inferInstanceAs (Decidable (∀ char ∈ tag.head?, char ∉ tag.tail))

theorem splitFirst_append {tag text : Text} (sharp : Sharp tag) (some : tag ≠ [])
    (free : ¬ tag <:+: text) (rest : Text) :
    splitFirst tag (text ++ (tag ++ rest)) = Option.some (text, rest) := by
  induction text with
  | nil =>
    cases tag with
    | nil => exact absurd rfl some
    | cons first tag =>
      have begins : (first :: tag).isPrefixOf (first :: (tag ++ rest)) = true :=
        List.isPrefixOf_iff_prefix.mpr ⟨rest, rfl⟩
      change splitFirst (first :: tag) (first :: (tag ++ rest)) = _
      rw [splitFirst, if_pos begins]
      simp
  | cons char text ih =>
    have notHere : ¬ tag.isPrefixOf (char :: (text ++ (tag ++ rest))) = true := by
      intro begins
      have isPrefix : tag <+: (char :: text) ++ (tag ++ rest) := List.isPrefixOf_iff_prefix.mp begins
      rcases prefix_or_prefix_of_prefix isPrefix (prefix_append _ _) with
        inText | ⟨last, rfl⟩
      · exact free inText.isInfix
      · -- The tag would begin again inside itself.
        rw [prefix_append_right_inj] at isPrefix
        cases last with
        | nil => exact free (by simp)
        | cons first last =>
          have again : first = char := by
            obtain ⟨more, isMore⟩ := isPrefix
            simpa using congrArg List.head? isMore
          subst again
          exact sharp first rfl (by simp)
    rw [infix_cons_iff, not_or] at free
    rw [cons_append, splitFirst, if_neg notHere, ih free.2]
    rfl

/-- `opening(.*?)closing` -/
def tagged (opening closing text : Text) : Option (Text × Text) :=
  if opening.isPrefixOf text then splitFirst closing (text.drop opening.length) else none

/-- `opening(.+?)closing` -/
def taggedSome (opening closing text : Text) : Option (Text × Text) :=
  if opening.isPrefixOf text then
    match text.drop opening.length with
    | [] => none
    | char :: rest => (splitFirst closing rest).map fun parts => (char :: parts.1, parts.2)
  else none

section Tagged

variable {opening closing : Text}

variable {char : Char}

theorem isPrefixOf_cons_eq_false {tag : Text} (some : tag ≠ [])
    (notHead : tag.head? ≠ Option.some char) (rest : Text) :
    ¬ tag.isPrefixOf (char :: rest) = true := by
  cases tag with
  | nil => exact absurd rfl some
  | cons first tag =>
    rw [List.isPrefixOf_iff_prefix, cons_prefix_cons]
    rintro ⟨rfl, -⟩
    exact notHead rfl

theorem taggedSome_eq_none (some : opening ≠ []) (notHead : opening.head? ≠ Option.some char)
    (rest : Text) : taggedSome opening closing (char :: rest) = none := by
  rw [taggedSome, if_neg (isPrefixOf_cons_eq_false some notHead rest)]

theorem tagged_append (sharp : Sharp closing) (some : closing ≠ []) {text : Text}
    (free : ¬ closing <:+: text) (rest : Text) :
    tagged opening closing (opening ++ (text ++ (closing ++ rest))) = Option.some (text, rest) := by
  have begins : opening.isPrefixOf (opening ++ (text ++ (closing ++ rest))) = true :=
    List.isPrefixOf_iff_prefix.mpr (prefix_append _ _)
  rw [tagged, if_pos begins, drop_left, splitFirst_append sharp some free]

theorem taggedSome_append (sharp : Sharp closing) (some : closing ≠ []) {text : Text}
    (free : ¬ closing <:+: text) (rest : Text) :
    taggedSome opening closing (opening ++ (char :: text ++ (closing ++ rest))) =
      Option.some (char :: text, rest) := by
  have begins : opening.isPrefixOf (opening ++ (char :: text ++ (closing ++ rest))) = true :=
    List.isPrefixOf_iff_prefix.mpr (prefix_append _ _)
  rw [taggedSome, if_pos begins, drop_left, cons_append]
  dsimp only
  rw [splitFirst_append sharp some free]
  rfl

end Tagged

/-! ## Matches -/

variable {γ : Type u}

/-- What a matcher captures, from the left and without overlaps. The number counts the characters
of a match that are still to be passed. -/
def findMatches (matchAt : Text → Option (γ × Text)) : ℕ → Text → List γ
  | _, [] => []
  | passed + 1, _ :: text => findMatches matchAt passed text
  | 0, char :: text =>
    match matchAt (char :: text) with
    | some found => found.1 :: findMatches matchAt (text.length - found.2.length) text
    | none => findMatches matchAt 0 text

section Matches

variable {matchAt : Text → Option (γ × Text)}

theorem findMatches_eq_drop (passed : ℕ) (text : Text) :
    findMatches matchAt passed text = findMatches matchAt 0 (text.drop passed) := by
  induction text generalizing passed with
  | nil => rw [drop_nil]; rfl
  | cons char text ih =>
    cases passed with
    | zero => rfl
    | succ passed => exact ih passed

theorem findMatches_append {piece rest : Text} {found : γ} (some : piece ≠ [])
    (isMatch : matchAt (piece ++ rest) = Option.some (found, rest)) :
    findMatches matchAt 0 (piece ++ rest) = found :: findMatches matchAt 0 rest := by
  cases piece with
  | nil => exact absurd rfl some
  | cons char piece =>
    have length : (piece ++ rest).length - rest.length = piece.length := by
      rw [length_append, Nat.add_sub_cancel]
    rw [cons_append] at isMatch ⊢
    rw [findMatches, isMatch]
    dsimp only
    rw [length, findMatches_eq_drop, drop_left]

theorem findMatches_skip {before text : Text}
    (skip : ∀ char ∈ before, ∀ rest, matchAt (char :: rest) = none) :
    findMatches matchAt 0 (before ++ text) = findMatches matchAt 0 text := by
  induction before with
  | nil => rfl
  | cons char before ih =>
    rw [forall_mem_cons] at skip
    rw [cons_append, findMatches, skip.1]
    exact ih skip.2

variable {ι : Type v}

theorem findMatches_intercalate {separator after : Text} {piece : ι → Text} {found : ι → γ}
    {items : List ι} (skip : ∀ char ∈ separator, ∀ rest, matchAt (char :: rest) = none)
    (some : ∀ item ∈ items, piece item ≠ [])
    (matchesPiece : ∀ item ∈ items, ∀ rest,
      matchAt (piece item ++ rest) = Option.some (found item, rest))
    (ends : findMatches matchAt 0 after = []) :
    findMatches matchAt 0 (separator.intercalate (items.map piece) ++ after) =
      items.map found := by
  induction items with
  | nil => exact ends
  | cons item items ih =>
    rw [forall_mem_cons] at some matchesPiece
    cases items with
    | nil =>
      rw [map_singleton, intercalate_singleton, findMatches_append some.1
        (matchesPiece.1 after), ends]
      rfl
    | cons second items =>
      rw [map_cons, map_cons, intercalate_cons_cons, append_assoc,
        append_assoc, findMatches_append some.1 (matchesPiece.1 _), findMatches_skip skip,
        ← map_cons, ih some.2 matchesPiece.2]
      rfl

end Matches

/-- A reading that succeeds on each of some pieces succeeds on all of them. -/
theorem mapM_map_eq_some {ι : Type v} {α β : Type u} {read : α → Option β} {items : List ι}
    {piece : ι → α} {value : ι → β}
    (reads : ∀ item ∈ items, read (piece item) = some (value item)) :
    (items.map piece).mapM read = some (items.map value) := by
  induction items with
  | nil => rfl
  | cons item items ih =>
    rw [forall_mem_cons] at reads
    rw [map_cons, mapM_cons, reads.1, ih reads.2]
    rfl

end Geobench.Library
