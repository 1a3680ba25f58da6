import Mathlib.Data.List.DropRight
import Mathlib.Data.List.Infix
import Mathlib.Algebra.GroupWithZero.Nat

/-!
# Texts as lists

Operations on texts whose characters are of any type: what `strip`, `split`, `join`
and `replace` do, the separator and the blank characters being parameters.

`dropLastPart` removes what follows the last separator. It gives a strictly shorter
text (`length_lt_of_dropLastPart`), so removing parts again and again ends. `splitFirst`
and `splitLast` split a text in two, at the first or at the last place of a separator of
any length.
-/

namespace Geobench.Library

open List

universe u

variable {α : Type u}

/-- What holds of all characters of a text is decided character by character of the text. -/
instance (priority := 2000) decidableForallMemText {p : Char → Prop} [DecidablePred p]
    (text : List Char) : Decidable (∀ char ∈ text, p char) :=
  List.decidableBAll p text

instance (priority := 2000) decidableExistsMemText {p : Char → Prop} [DecidablePred p]
    (text : List Char) : Decidable (∃ char ∈ text, p char) :=
  List.decidableBEx p text

instance (priority := 2000) decidableForallMemOption {p : Char → Prop} [DecidablePred p]
    (first : Option Char) : Decidable (∀ char ∈ first, p char) :=
  Option.decidableForallMem first

/-- Remove the blank characters at both ends. -/
def strip (isSpace : α → Bool) (text : List α) : List α :=
  ((text.dropWhile isSpace).reverse.dropWhile isSpace).reverse

theorem strip_sublist (isSpace : α → Bool) (text : List α) : (strip isSpace text).Sublist text := by
  have inner := dropWhile_sublist isSpace (l := text)
  have outer := dropWhile_sublist isSpace (l := (text.dropWhile isSpace).reverse)
  exact (reverse_reverse (text.dropWhile isSpace) ▸ outer.reverse).trans inner

theorem length_strip_le (isSpace : α → Bool) (text : List α) :
    (strip isSpace text).length ≤ text.length :=
  (strip_sublist isSpace text).length_le

variable {isSpace : α → Bool} {text short : List α}

/-- A text that begins with a character that is not blank keeps it. -/
theorem dropWhile_eq_self_of_prefix (isPrefix : short <+: text)
    (trimmed : text.dropWhile isSpace = text) : short.dropWhile isSpace = short := by
  cases short with
  | nil => rfl
  | cons char rest =>
    obtain ⟨after, rfl⟩ := isPrefix
    rw [cons_append, dropWhile_cons] at trimmed
    rw [dropWhile_cons]
    split at trimmed
    · have shorter := (dropWhile_sublist isSpace (l := rest ++ after)).length_le
      rw [trimmed, length_cons] at shorter
      exact absurd shorter (Nat.not_succ_le_self _)
    · rename_i notSpace
      rw [if_neg notSpace]

/-- A stripped text does not begin with a blank character. -/
theorem dropWhile_strip (isSpace : α → Bool) (text : List α) :
    (strip isSpace text).dropWhile isSpace = strip isSpace text := by
  have isPrefix : strip isSpace text <+: text.dropWhile isSpace := by
    rw [strip, ← reverse_suffix, reverse_reverse]
    exact dropWhile_suffix isSpace
  exact dropWhile_eq_self_of_prefix isPrefix (dropWhile_idempotent isSpace text)

/-- Stripping a stripped text changes nothing. -/
theorem strip_strip (isSpace : α → Bool) (text : List α) :
    strip isSpace (strip isSpace text) = strip isSpace text := by
  have right : (strip isSpace text).reverse.dropWhile isSpace = (strip isSpace text).reverse := by
    rw [strip, reverse_reverse]
    exact dropWhile_idempotent isSpace _
  calc strip isSpace (strip isSpace text)
      = ((strip isSpace text).reverse.dropWhile isSpace).reverse := by
        rw [strip, dropWhile_strip]
    _ = strip isSpace text := by rw [right, reverse_reverse]

theorem exists_of_dropWhile (isSpace : α → Bool) (text : List α) :
    ∃ before, (∀ char ∈ before, isSpace char = true) ∧ text = before ++ text.dropWhile isSpace :=
  ⟨text.takeWhile isSpace, fun _ isChar => mem_takeWhile_imp isChar,
    (takeWhile_append_dropWhile).symm⟩

theorem exists_of_rdropWhile (isSpace : α → Bool) (text : List α) :
    ∃ after, (∀ char ∈ after, isSpace char = true) ∧ text = text.rdropWhile isSpace ++ after := by
  obtain ⟨after, blank, isText⟩ := exists_of_dropWhile isSpace text.reverse
  refine ⟨after.reverse, fun char isChar => blank char (mem_reverse.mp isChar), ?_⟩
  rw [List.rdropWhile, ← reverse_append, ← isText, reverse_reverse]

/-- A text is what is left of it between blank characters. -/
theorem exists_of_strip (isSpace : α → Bool) (text : List α) :
    ∃ before after, (∀ char ∈ before, isSpace char = true) ∧
      (∀ char ∈ after, isSpace char = true) ∧ text = before ++ (strip isSpace text ++ after) := by
  obtain ⟨before, blankBefore, isText⟩ := exists_of_dropWhile isSpace text
  obtain ⟨after, blankAfter, isRest⟩ := exists_of_rdropWhile isSpace (text.dropWhile isSpace)
  refine ⟨before, after, blankBefore, blankAfter, ?_⟩
  rw [strip, ← List.rdropWhile, ← isRest]
  exact isText

variable {before after : List α}

/-- Blank characters around a text do not change what is left of it. -/
theorem strip_append (isSpace : α → Bool) (text : List α)
    (blankBefore : ∀ char ∈ before, isSpace char = true)
    (blankAfter : ∀ char ∈ after, isSpace char = true) :
    strip isSpace (before ++ (text ++ after)) = strip isSpace text := by
  have right : after.dropWhile isSpace = [] := dropWhile_eq_nil_iff.mpr blankAfter
  rw [strip, strip, dropWhile_append_of_pos blankBefore, dropWhile_append]
  cases rest : text.dropWhile isSpace with
  | nil => simp [right]
  | cons char rest =>
    have blankReverse : ∀ char ∈ after.reverse, isSpace char = true :=
      fun char isChar => blankAfter char (mem_reverse.mp isChar)
    rw [if_neg (by simp), reverse_append, dropWhile_append_of_pos blankReverse]

theorem dropWhile_eq_self_iff_head (isSpace : α → Bool) (text : List α) :
    text.dropWhile isSpace = text ↔ ∀ char ∈ text.head?, isSpace char = false := by
  cases text with
  | nil => simp
  | cons char rest => rw [dropWhile_eq_self_iff]; simp

/-- A stripped text is one without a blank character at its ends. -/
theorem strip_eq_self_iff (isSpace : α → Bool) (text : List α) :
    strip isSpace text = text ↔
      (∀ char ∈ text.head?, isSpace char = false) ∧
        ∀ char ∈ text.getLast?, isSpace char = false := by
  rw [getLast?_eq_head?_reverse, ← dropWhile_eq_self_iff_head, ← dropWhile_eq_self_iff_head]
  constructor
  · intro stripped
    have left : text.dropWhile isSpace = text := by
      rw [← stripped]
      exact dropWhile_strip isSpace text
    rw [strip, left] at stripped
    exact ⟨left, reverse_eq_iff.mp stripped⟩
  · rintro ⟨left, right⟩
    rw [strip, left, right, reverse_reverse]

theorem strip_eq_self (notBlank : ∀ char ∈ text, isSpace char = false) :
    strip isSpace text = text :=
  (strip_eq_self_iff isSpace text).mpr
    ⟨fun char isHead => notBlank char (mem_of_mem_head? isHead),
      fun char isLast => notBlank char (mem_of_mem_getLast? isLast)⟩

theorem strip_append_eq_self {first second : List α} (firstStripped : strip isSpace first = first)
    (secondStripped : strip isSpace second = second) :
    strip isSpace (first ++ second) = first ++ second := by
  rw [strip_eq_self_iff] at firstStripped secondStripped ⊢
  rw [head?_append, getLast?_append]
  constructor
  · intro char isHead
    rcases Option.or_eq_some_iff.mp isHead with isHead | ⟨-, isHead⟩
    · exact firstStripped.1 char isHead
    · exact secondStripped.1 char isHead
  · intro char isLast
    rcases Option.or_eq_some_iff.mp isLast with isLast | ⟨-, isLast⟩
    · exact secondStripped.2 char isLast
    · exact firstStripped.2 char isLast

variable {separator : α} {parts : List (List α)}

theorem strip_intercalate (notBlank : isSpace separator = false)
    (stripped : ∀ part ∈ parts, strip isSpace part = part) :
    strip isSpace ([separator].intercalate parts) = [separator].intercalate parts := by
  induction parts with
  | nil => rfl
  | cons first rest ih =>
    rw [forall_mem_cons] at stripped
    cases rest with
    | nil => simpa using stripped.1
    | cons second rest =>
      have between : strip isSpace [separator] = [separator] := strip_eq_self (by simpa)
      rw [intercalate_cons_cons]
      exact strip_append_eq_self (strip_append_eq_self stripped.1 between) (ih stripped.2)

/-- Shorter parts, joined, are a part of the parts, joined. -/
theorem intercalate_map_sublist (separator : List α) {shorten : List α → List α}
    (sublist : ∀ part, (shorten part).Sublist part) (parts : List (List α)) :
    (separator.intercalate (parts.map shorten)).Sublist (separator.intercalate parts) := by
  induction parts with
  | nil => exact List.Sublist.slnil
  | cons first rest ih =>
    cases rest with
    | nil => simpa using sublist first
    | cons second rest =>
      rw [map_cons, map_cons, intercalate_cons_cons, intercalate_cons_cons]
      exact ((sublist first).append (List.Sublist.refl separator)).append ih

theorem exists_intercalate_cons (separator first : List α) (parts : List (List α)) :
    ∃ more, separator.intercalate (first :: parts) = first ++ more := by
  cases parts with
  | nil => exact ⟨[], by simp⟩
  | cons second parts =>
    rw [intercalate_cons_cons]
    exact ⟨_, by rw [append_assoc]⟩

/-- Whatever is between texts that are not blank at their ends stays between them. -/
theorem strip_append_of_ne_nil {first last : List α} (middle : List α)
    (firstStripped : strip isSpace first = first) (lastStripped : strip isSpace last = last)
    (someFirst : first ≠ []) (someLast : last ≠ []) :
    strip isSpace (first ++ (middle ++ last)) = first ++ (middle ++ last) := by
  rw [strip_eq_self_iff] at firstStripped lastStripped ⊢
  rw [head?_append_of_ne_nil _ someFirst, getLast?_append_of_ne_nil _ (by simp [someLast]),
    getLast?_append_of_ne_nil _ someLast]
  exact ⟨firstStripped.1, lastStripped.2⟩

/-- Joined texts that are not blank at their ends are not blank at their ends. -/
theorem strip_intercalate_of_ne_nil {separator : List α} (some : ∀ part ∈ parts, part ≠ [])
    (stripped : ∀ part ∈ parts, strip isSpace part = part) :
    strip isSpace (separator.intercalate parts) = separator.intercalate parts := by
  induction parts with
  | nil => rfl
  | cons first parts ih =>
    rw [forall_mem_cons] at some stripped
    cases parts with
    | nil => simpa using stripped.1
    | cons second parts =>
      have someLater : separator.intercalate (second :: parts) ≠ [] := by
        obtain ⟨more, isMore⟩ := exists_intercalate_cons separator second parts
        rw [isMore]
        exact append_ne_nil_of_left_ne_nil (some.2 second mem_cons_self) _
      rw [intercalate_cons_cons, append_assoc]
      exact strip_append_of_ne_nil separator stripped.1 (ih some.2 stripped.2) some.1 someLater

theorem intercalate_concat (separator : α) (some : parts ≠ []) (last : List α) :
    [separator].intercalate (parts ++ [last]) =
      [separator].intercalate parts ++ separator :: last := by
  induction parts with
  | nil => exact absurd rfl some
  | cons first rest ih =>
    cases rest with
    | nil => simp [intercalate_cons_cons, intercalate_singleton]
    | cons second rest =>
      rw [cons_append, cons_append, intercalate_cons_cons,
        intercalate_cons_cons, ← cons_append, ih (cons_ne_nil _ _)]
      simp

/-! ## Texts in texts -/

variable {char : α}

/-- A text without a character that begins a longer one ends before the character. -/
theorem prefix_of_prefix_append_cons (free : char ∉ short)
    (isPrefix : short <+: before ++ char :: after) : short <+: before := by
  have first : before ++ [char] <+: before ++ char :: after := ⟨after, by simp⟩
  rcases prefix_or_prefix_of_prefix isPrefix first with isPrefix | isPrefix
  · rcases prefix_concat_iff.mp isPrefix with same | isPrefix
    · exact absurd (by simp [same]) free
    · exact isPrefix
  · exact absurd (isPrefix.subset (by simp)) free

/-- A text without a character is on one side of it. -/
theorem infix_append_cons_iff (free : char ∉ short) :
    short <:+: before ++ char :: after ↔ short <:+: before ∨ short <:+: after := by
  constructor
  · induction before with
    | nil =>
      rw [nil_append, infix_cons_iff]
      rintro (isPrefix | isInfix)
      · have nothing : short <+: [] := prefix_of_prefix_append_cons free isPrefix
        rw [prefix_nil.mp nothing]
        exact .inl nil_infix
      · exact .inr isInfix
    | cons first before ih =>
      rw [cons_append, infix_cons_iff, infix_cons_iff]
      rintro (isPrefix | isInfix)
      · exact .inl (.inl (prefix_of_prefix_append_cons free isPrefix))
      · exact (ih isInfix).imp_left .inr
  · rintro (isInfix | isInfix)
    · exact isInfix.trans (prefix_append _ _).isInfix
    · exact isInfix.trans ⟨before ++ [char], [], by simp⟩

/-- A text without the separator is in one of the texts that are joined with it. -/
theorem exists_of_infix_intercalate (free : separator ∉ short) (some : short ≠ [])
    (isInfix : short <:+: [separator].intercalate parts) : ∃ part ∈ parts, short <:+: part := by
  induction parts with
  | nil => exact absurd (infix_nil.mp isInfix) some
  | cons first parts ih =>
    cases parts with
    | nil => exact ⟨first, mem_cons_self, by simpa using isInfix⟩
    | cons second parts =>
      rw [intercalate_cons_cons, append_assoc, singleton_append,
        infix_append_cons_iff free] at isInfix
      rcases isInfix with isInfix | isInfix
      · exact ⟨first, mem_cons_self, isInfix⟩
      · obtain ⟨part, isPart, isInfix⟩ := ih isInfix
        exact ⟨part, mem_cons_of_mem _ isPart, isInfix⟩

/-- A text begins behind what does not have its first character. -/
theorem infix_of_infix_append (free : ∀ char ∈ short.head?, char ∉ before)
    (isInfix : short <:+: before ++ after) : short <:+: after := by
  induction before with
  | nil => exact isInfix
  | cons first before ih =>
    have freeBefore : ∀ char ∈ short.head?, char ∉ before :=
      fun char isHead isIn => free char isHead (mem_cons_of_mem _ isIn)
    rw [cons_append, infix_cons_iff] at isInfix
    rcases isInfix with isPrefix | isInfix
    · cases short with
      | nil => exact nil_infix
      | cons head short =>
        rw [cons_prefix_cons] at isPrefix
        exact absurd (by simp [isPrefix.1]) (free head rfl)
    · exact ih freeBefore isInfix

/-- A text ends before what has none of its characters. -/
theorem infix_of_infix_append_right (free : ∀ char ∈ after, char ∉ short)
    (isInfix : short <:+: before ++ after) : short <:+: before := by
  cases after with
  | nil => simpa using isInfix
  | cons char after =>
    rw [forall_mem_cons] at free
    rcases (infix_append_cons_iff free.1).mp isInfix with isInfix | isInfix
    · exact isInfix
    · cases short with
      | nil => exact nil_infix
      | cons first short =>
        exact absurd mem_cons_self (free.2 first (isInfix.subset mem_cons_self))

variable [DecidableEq α]

def replaceChar (old new : α) (text : List α) : List α :=
  text.map fun char => if char = old then new else char

@[simp] theorem length_replaceChar (old new : α) (text : List α) :
    (replaceChar old new text).length = text.length :=
  length_map _

/-- Replace every occurrence of a text, from the left, by another one. The number counts
the characters of an occurrence that are still to be dropped. -/
def replaceFrom (old new : List α) : ℕ → List α → List α
  | _, [] => []
  | dropped + 1, _ :: rest => replaceFrom old new dropped rest
  | 0, char :: rest =>
    if old.isPrefixOf (char :: rest) then new ++ replaceFrom old new (old.length - 1) rest
    else char :: replaceFrom old new 0 rest

theorem replaceFrom_append {first : α} (free : first ∉ before) (more new after : List α) :
    replaceFrom (first :: more) new 0 (before ++ after) =
      before ++ replaceFrom (first :: more) new 0 after := by
  induction before with
  | nil => rfl
  | cons char before ih =>
    rw [mem_cons, not_or] at free
    have notFirst : (first :: more).isPrefixOf (char :: (before ++ after)) = false := by
      simp [List.isPrefixOf, free.1]
    rw [cons_append, replaceFrom, notFirst, ih free.2]
    rfl

theorem replaceFrom_drop (old new dropped rest : List α) :
    replaceFrom old new dropped.length (dropped ++ rest) = replaceFrom old new 0 rest := by
  induction dropped with
  | nil => rfl
  | cons char dropped ih => exact ih

theorem replaceFrom_once {first : α} (freeBefore : first ∉ before) (freeAfter : first ∉ after)
    (more new : List α) :
    replaceFrom (first :: more) new 0 (before ++ (first :: more ++ after)) =
      before ++ (new ++ after) := by
  have rest : replaceFrom (first :: more) new 0 after = after := by
    have free := replaceFrom_append freeAfter more new []
    simpa [replaceFrom] using free
  have isPrefix : (first :: more).isPrefixOf (first :: (more ++ after)) = true :=
    List.isPrefixOf_iff_prefix.mpr ⟨after, rfl⟩
  rw [replaceFrom_append freeBefore, cons_append, replaceFrom, if_pos isPrefix]
  rw [length_cons, Nat.add_sub_cancel, replaceFrom_drop, rest]

/-- Remove the last part of a text and the separator before it. A text of one part has no
separator. -/
def dropLastPart (separator : α) (text : List α) : Option (List α) :=
  let parts := text.splitOn separator
  if 1 < parts.length then some ([separator].intercalate parts.dropLast) else none

theorem eq_append_of_dropLastPart {shorter : List α}
    (dropped : dropLastPart separator text = some shorter) :
    ∃ last, text = shorter ++ separator :: last := by
  unfold dropLastPart at dropped
  dsimp only at dropped
  split at dropped
  · rename_i several
    obtain ⟨parts, last, isSplit⟩ : ∃ parts last, text.splitOn separator = parts ++ [last] := by
      refine (eq_nil_or_concat' (text.splitOn separator)).resolve_left fun none => ?_
      rw [none] at several
      exact absurd several (Nat.not_lt_zero 1)
    have joined : [separator].intercalate (text.splitOn separator) = text :=
      intercalate_splitOn separator
    rw [isSplit] at several dropped joined
    rw [dropLast_concat, Option.some.injEq] at dropped
    have someParts : parts ≠ [] := by
      rintro rfl
      exact absurd several (Nat.lt_irrefl 1)
    exact ⟨last, by rw [← joined, intercalate_concat separator someParts, dropped]⟩
  · cases dropped

theorem length_lt_of_dropLastPart {shorter : List α}
    (dropped : dropLastPart separator text = some shorter) : shorter.length < text.length := by
  obtain ⟨last, rfl⟩ := eq_append_of_dropLastPart dropped
  rw [length_append, length_cons]
  omega

/-! ## Parts of texts -/

/-- The parts between the places of a tag, where items of the text may have been passed. -/
def partsBetween (tag : List α) : ℕ → List α → List (List α)
  | _, [] => [[]]
  | passed + 1, _ :: rest => partsBetween tag passed rest
  | 0, char :: rest =>
    if tag.isPrefixOf (char :: rest) then [] :: partsBetween tag (tag.length - 1) rest
    else (partsBetween tag 0 rest).modifyHead (char :: ·)

/-- The parts of two texts, of which the second goes on in the last part of the first. -/
def glue : List (List α) → List (List α) → List (List α)
  | [], later => later
  | [last], later => later.modifyHead (last ++ ·)
  | first :: second :: parts, later => first :: glue (second :: parts) later

omit [DecidableEq α] in
theorem glue_modifyHead {later : List (List α)} (some : parts ≠ []) (char : α) :
    glue (parts.modifyHead (char :: ·)) later = (glue parts later).modifyHead (char :: ·) := by
  cases parts with
  | nil => exact absurd rfl some
  | cons first parts =>
    cases parts with
    | nil => cases later <;> rfl
    | cons second parts => rfl

omit [DecidableEq α] in
theorem glue_nil_cons (some : parts ≠ []) (later : List (List α)) :
    glue parts ([] :: later) = parts ++ later := by
  induction parts with
  | nil => exact absurd rfl some
  | cons first parts ih =>
    cases parts with
    | nil => rw [glue, modifyHead_cons, append_nil, singleton_append]
    | cons second parts =>
      rw [glue, ih (cons_ne_nil _ _)]
      rfl

theorem partsBetween_ne_nil (tag : List α) (passed : ℕ) (text : List α) :
    partsBetween tag passed text ≠ [] := by
  fun_induction partsBetween tag passed text with
  | case1 passed => exact cons_ne_nil _ _
  | case2 passed char rest ih => exact ih
  | case3 char rest found ih => exact cons_ne_nil _ _
  | case4 char rest notFound ih => rwa [ne_eq, modifyHead_eq_nil_iff]

variable {tag : List α}

/-- A text is parted on both sides of an item that the tag does not have behind its first. -/
theorem partsBetween_append {cut : α} (some : tag ≠ []) (tail : cut ∉ tag.tail) {passed : ℕ}
    (le : passed ≤ before.length) (more : List α) :
    partsBetween tag passed (before ++ cut :: more) =
      glue (partsBetween tag passed before) (partsBetween tag 0 (cut :: more)) := by
  have found_iff (char : α) (rest : List α) : tag.isPrefixOf (char :: (rest ++ cut :: more)) =
      tag.isPrefixOf (char :: rest) := by
    obtain ⟨first, others, rfl⟩ := exists_cons_of_ne_nil some
    rw [Bool.eq_iff_iff, List.isPrefixOf_iff_prefix, List.isPrefixOf_iff_prefix,
      cons_prefix_cons, cons_prefix_cons]
    exact and_congr_right fun _ => ⟨prefix_of_prefix_append_cons tail,
      fun isPrefix => isPrefix.trans (prefix_append _ _)⟩
  fun_induction partsBetween tag passed before with
  | case1 passed =>
    rw [Nat.le_zero.mp le, nil_append, glue]
    cases partsBetween tag 0 (cut :: more) <;> rfl
  | case2 passed char rest ih => exact ih (Nat.le_of_succ_le_succ le)
  | case3 char rest found ih =>
    have length := (List.isPrefixOf_iff_prefix.mp found).length_le
    rw [length_cons] at length
    rw [cons_append, partsBetween, if_pos ((found_iff char rest).trans found), ih (by omega)]
    cases isParts : partsBetween tag (tag.length - 1) rest with
    | nil => exact absurd isParts (partsBetween_ne_nil _ _ _)
    | cons second parts => rfl
  | case4 char rest notFound ih =>
    rw [cons_append, partsBetween, found_iff, if_neg notFound, ih (Nat.zero_le _),
      glue_modifyHead (partsBetween_ne_nil _ _ _)]

theorem partsBetween_tag (others rest : List α) :
    partsBetween (char :: others) 0 (char :: (others ++ rest)) =
      [] :: partsBetween (char :: others) 0 rest := by
  have dropped : ∀ dropped, partsBetween (char :: others) dropped.length (dropped ++ rest) =
      partsBetween (char :: others) 0 rest := by
    intro dropped
    induction dropped with
    | nil => rfl
    | cons item dropped ih => exact ih
  rw [partsBetween, if_pos]
  · exact congrArg ([] :: ·) (dropped others)
  · exact List.isPrefixOf_iff_prefix.mpr ⟨rest, rfl⟩

theorem partsBetween_free (free : ¬ tag <:+: text) : partsBetween tag 0 text = [text] := by
  induction text with
  | nil => rfl
  | cons char rest ih =>
    rw [infix_cons_iff, not_or] at free
    rw [partsBetween, if_neg (mt List.isPrefixOf_iff_prefix.mp free.1), ih free.2]
    rfl

theorem length_flatten_partsBetween (some : tag ≠ []) (passed : ℕ) (text : List α) :
    (partsBetween tag passed text).flatten.length ≤ text.length - passed ∧
      (passed = 0 → tag <:+: text → (partsBetween tag passed text).flatten.length < text.length) := by
  fun_induction partsBetween tag passed text with
  | case1 passed =>
    refine ⟨Nat.zero_le _, fun _ isInfix => absurd (infix_nil.mp isInfix) some⟩
  | case2 passed char rest ih =>
    rw [length_cons, Nat.succ_sub_succ]
    exact ⟨ih.1, fun none => absurd none (Nat.succ_ne_zero _)⟩
  | case3 char rest found ih =>
    rw [flatten_cons, nil_append, length_cons]
    exact ⟨by omega, fun _ _ => by omega⟩
  | case4 char rest notFound ih =>
    have length : ((partsBetween tag 0 rest).modifyHead (char :: ·)).flatten.length =
        (partsBetween tag 0 rest).flatten.length + 1 := by
      cases isParts : partsBetween tag 0 rest with
      | nil => exact absurd isParts (partsBetween_ne_nil _ _ _)
      | cons first parts => simp
    rw [length, length_cons, infix_cons_iff]
    refine ⟨by omega, fun _ isInfix => ?_⟩
    rcases isInfix with isPrefix | isInfix
    · exact absurd (List.isPrefixOf_iff_prefix.mpr isPrefix) notFound
    · have shorter := ih.2 rfl isInfix
      omega

/-- Removing a tag joins the parts. -/
theorem replaceFrom_nil (tag : List α) (passed : ℕ) (text : List α) :
    replaceFrom tag [] passed text = (partsBetween tag passed text).flatten := by
  fun_induction partsBetween tag passed text with
  | case1 passed => rfl
  | case2 passed char rest ih => exact ih
  | case3 char rest found ih => rw [replaceFrom, if_pos found, ih]; rfl
  | case4 char rest notFound ih =>
    rw [replaceFrom, if_neg notFound, ih]
    cases isParts : partsBetween tag 0 rest with
    | nil => exact absurd isParts (partsBetween_ne_nil _ _ _)
    | cons first parts => rfl

/-! ## Splitting once -/

/-- `text.split(separator, 1)`: what is before the first place of the separator, and what
is after it. -/
def splitFirst (separator : List α) : List α → Option (List α × List α)
  | [] => none
  | char :: rest =>
    if separator.isPrefixOf (char :: rest) then
      some ([], (char :: rest).drop separator.length)
    else (splitFirst separator rest).map fun parts => (char :: parts.1, parts.2)

/-- `text.rsplit(separator, 1)`: the same at the last place of the separator. -/
def splitLast (separator text : List α) : Option (List α × List α) :=
  (splitFirst separator.reverse text.reverse).map fun parts => (parts.2.reverse, parts.1.reverse)

/-- The parts of a text and the separator between them are the text. -/
theorem eq_append_of_splitFirst {separator : List α}
    (isSplit : splitFirst separator text = some (before, after)) :
    text = before ++ (separator ++ after) := by
  induction text generalizing before with
  | nil => cases isSplit
  | cons char rest ih =>
    rw [splitFirst] at isSplit
    split at isSplit
    · rename_i isPrefix
      obtain ⟨later, isRest⟩ := List.isPrefixOf_iff_prefix.mp isPrefix
      rw [← isRest, drop_left, Option.some.injEq, Prod.mk.injEq] at isSplit
      rw [← isSplit.1, ← isSplit.2, nil_append, isRest]
    · obtain ⟨⟨first, later⟩, found, same⟩ := Option.map_eq_some_iff.mp isSplit
      obtain ⟨rfl, rfl⟩ := Prod.mk.inj same
      rw [cons_append, ← ih found]

theorem eq_append_of_splitLast {separator : List α}
    (isSplit : splitLast separator text = some (before, after)) :
    text = before ++ (separator ++ after) := by
  obtain ⟨parts, isSplit, same⟩ := Option.map_eq_some_iff.mp isSplit
  rw [Prod.mk.injEq] at same
  have reversed := congrArg List.reverse (eq_append_of_splitFirst isSplit)
  simpa [same] using reversed

theorem splitFirst_eq_none_iff {separator : List α} (some : separator ≠ []) (text : List α) :
    splitFirst separator text = none ↔ ¬ separator <:+: text := by
  induction text with
  | nil => simpa [splitFirst] using some
  | cons char rest ih =>
    rw [splitFirst, infix_cons_iff, not_or, ← ih]
    split
    · rename_i isPrefix
      simp [List.isPrefixOf_iff_prefix.mp isPrefix]
    · rename_i notPrefix
      rw [List.isPrefixOf_iff_prefix] at notPrefix
      simp [notPrefix]

theorem splitFirst_singleton (after : List α) (free : separator ∉ before) :
    splitFirst [separator] (before ++ separator :: after) = some (before, after) := by
  induction before with
  | nil => simp [splitFirst]
  | cons char rest ih =>
    rw [mem_cons, not_or] at free
    simp [splitFirst, free.1, ih free.2]

theorem splitLast_singleton (before : List α) (free : separator ∉ after) :
    splitLast [separator] (before ++ separator :: after) = some (before, after) := by
  have found := splitFirst_singleton before.reverse (fun isIn => free (mem_reverse.mp isIn))
  simp [splitLast, found]

theorem not_mem_of_splitFirst (isSplit : splitFirst [separator] text = some (before, after)) :
    separator ∉ before := by
  induction text generalizing before with
  | nil => cases isSplit
  | cons char rest ih =>
    rw [splitFirst] at isSplit
    split at isSplit
    · rw [Option.some.injEq, Prod.mk.injEq] at isSplit
      exact isSplit.1 ▸ not_mem_nil
    · rename_i notFirst
      obtain ⟨⟨first, later⟩, found, same⟩ := Option.map_eq_some_iff.mp isSplit
      obtain ⟨rfl, rfl⟩ := Prod.mk.inj same
      have differs : separator ≠ char := by
        rintro rfl
        exact notFirst (by simp)
      exact not_mem_cons_of_ne_of_not_mem differs (ih found)

theorem not_mem_of_splitLast (isSplit : splitLast [separator] text = some (before, after)) :
    separator ∉ after := by
  obtain ⟨parts, found, same⟩ := Option.map_eq_some_iff.mp isSplit
  rw [← (Prod.mk.inj same).2, mem_reverse]
  exact not_mem_of_splitFirst found

theorem splitFirst_singleton_eq_none_iff (separator : α) (text : List α) :
    splitFirst [separator] text = none ↔ separator ∉ text := by
  rw [splitFirst_eq_none_iff (cons_ne_nil _ _), singleton_infix_iff]

theorem splitLast_singleton_eq_none_iff (separator : α) (text : List α) :
    splitLast [separator] text = none ↔ separator ∉ text := by
  rw [splitLast, Option.map_eq_none_iff, reverse_singleton,
    splitFirst_singleton_eq_none_iff, mem_reverse]

/-! ## Texts of characters -/

/-- A Python string, as the list of its characters. -/
abbrev Text := List Char

instance lawfulBEqText : LawfulBEq Text := inferInstance

def isBlankCode (code : ℕ) : Bool :=
  (9 ≤ code && code ≤ 13) || (28 ≤ code && code ≤ 32) || (0x2000 ≤ code && code ≤ 0x200a) ||
    [0x85, 0xa0, 0x1680, 0x2028, 0x2029, 0x202f, 0x205f, 0x3000].contains code

def isBlank (char : Char) : Bool := isBlankCode char.toNat

end Geobench.Library
