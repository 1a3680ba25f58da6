import Geobench.Library.Text

/-!
# Searching texts for patterns

Tags are compared letter by letter, whatever the case of the letters. `findall` collects what a
matcher captures at the places where it matches, from the left and without overlaps, and
`Pattern` has the few forms of regular expressions whose matches are only asked to exist.

`lastBetween_of_findall` says where the **last match** of a text between an opening and a closing
tag is: what is before it leaves no opening tag unclosed, no closing tag is in it, and no more
text between tags is behind it.
-/

namespace Geobench.Library

open List

/-! ## Letters and tags -/

/-- The letters beyond ASCII that are a letter of ASCII in some case. -/
def foreignLetters : List (Char × ℕ) := [('i', 0x130), ('i', 0x131), ('s', 0x17f), ('k', 0x212a)]

/-- Whether a code point is a lower-case character of a pattern, whatever its case. -/
def sameLetter (letter : Char) (code : ℕ) : Bool :=
  code = letter.toNat || code = letter.toUpper.toNat || foreignLetters.contains (letter, code)

def letterCodes (letter : Char) : List ℕ :=
  letter.toNat :: letter.toUpper.toNat ::
    (foreignLetters.filter fun foreign => foreign.1 = letter).map Prod.snd

theorem mem_letterCodes {letter : Char} {code : ℕ} :
    code ∈ letterCodes letter ↔ sameLetter letter code = true := by
  simp [letterCodes, sameLetter, mem_filter, or_assoc]

/-- Letters that no code point is both of. -/
def Distinct (letter other : Char) : Prop :=
  ∀ code, sameLetter letter code = true → sameLetter other code = false

instance (letter other : Char) : Decidable (Distinct letter other) :=
  decidable_of_iff (∀ code ∈ letterCodes letter, sameLetter other code = false) (by
    simp only [mem_letterCodes]
    rfl)

/-- What follows a tag at the beginning of a text. -/
def dropTag : Text → Text → Option Text
  | [], text => some text
  | _ :: _, [] => none
  | letter :: tag, char :: text =>
    if sameLetter letter char.toNat then dropTag tag text else none

/-- What is before the first of a tag, and what follows it. -/
def splitAtTag (tag : Text) : Text → Option (Text × Text)
  | [] => (dropTag tag []).map fun rest => ([], rest)
  | char :: text =>
    match dropTag tag (char :: text) with
    | some rest => some ([], rest)
    | none => (splitAtTag tag text).map fun split => (char :: split.1, split.2)

/-- What a matcher captures, from the left and without overlaps. The number counts the characters
of a match that are still to be passed. -/
def findall (matchAt : Text → Option (Text × Text)) : ℕ → Text → List Text
  | _, [] => []
  | passed + 1, _ :: text => findall matchAt passed text
  | 0, char :: text =>
    match matchAt (char :: text) with
    | some found => found.1 :: findall matchAt (text.length - found.2.length) text
    | none => findall matchAt 0 text

/-! ## Patterns -/

/-- A place in a text: the code point before it and what follows it. -/
abbrev Place := Option ℕ × List ℕ

inductive Pattern where
  | empty
  | one (member : ℕ → Bool)
  | many (member : ℕ → Bool)
  | boundary (isWord : ℕ → Bool)
  | seq (first second : Pattern)
  | either (first second : Pattern)

/-- The places behind one or more members of a class. -/
def manyEnds (member : ℕ → Bool) : List ℕ → List Place
  | [] => []
  | code :: rest =>
    if member code then (some code, rest) :: manyEnds member rest else []

/-- The places where a match that begins at a place can end. -/
def Pattern.ends : Pattern → Place → List Place
  | .empty, place => [place]
  | .one _, (_, []) => []
  | .one member, (_, code :: rest) => if member code then [(some code, rest)] else []
  | .many member, place => manyEnds member place.2
  | .boundary isWord, place =>
    if place.1.any isWord = place.2.head?.any isWord then [] else [place]
  | .seq first second, place => (first.ends place).flatMap second.ends
  | .either first second, place => first.ends place ++ second.ends place

/-- Whether a pattern matches at some place from a place on. -/
def Pattern.searchFrom (pattern : Pattern) : Option ℕ → List ℕ → Bool
  | before, [] => !(pattern.ends (before, [])).isEmpty
  | before, code :: rest =>
    !(pattern.ends (before, code :: rest)).isEmpty || pattern.searchFrom (some code) rest

def Pattern.search (pattern : Pattern) (text : List ℕ) : Bool := pattern.searchFrom none text

namespace Pattern

/-- The letters of a word, whatever their case. -/
def word (letters : Text) : Pattern :=
  letters.foldr (fun letter rest => seq (one (sameLetter letter)) rest) empty

def sequence (patterns : List Pattern) : Pattern := patterns.foldr seq empty

/-- One of some patterns, of which there is a first. -/
def oneOf (first : Pattern) (others : List Pattern) : Pattern := others.foldl either first

def maybe (pattern : Pattern) : Pattern := either pattern empty

def upTo (pattern : Pattern) : ℕ → Pattern
  | 0 => empty
  | times + 1 => maybe (seq pattern (upTo pattern times))

def words (letters : List String) : Pattern :=
  match letters with
  | [] => one fun _ => false
  | first :: others => oneOf (word first.toList) (others.map fun other => word other.toList)

end Pattern

/-! ## Where tags are -/

/-- A tag at an index of a text. -/
def TagAt (tag text : Text) (index : ℕ) : Prop :=
  ∀ offset letter, tag[offset]? = some letter →
    ∃ char, text[index + offset]? = some char ∧ sameLetter letter char.toNat = true

variable {tag text rest : Text}

theorem dropTag_eq_some :
    dropTag tag text = some rest ↔ TagAt tag text 0 ∧ rest = text.drop tag.length := by
  fun_induction dropTag tag text with
  | case1 text =>
    constructor
    · intro dropped
      cases dropped
      exact ⟨nofun, rfl⟩
    · rintro ⟨-, rfl⟩
      rfl
  | case2 letter tag =>
    constructor
    · intro dropped
      cases dropped
    · rintro ⟨found, -⟩
      obtain ⟨char, isChar, -⟩ := found 0 letter rfl
      cases isChar
  | case3 letter tag char text same ih =>
    rw [ih]
    refine and_congr_left fun _ => ⟨?_, ?_⟩
    · intro found offset other isOther
      cases offset with
      | zero =>
        obtain rfl : letter = other := by simpa using isOther
        exact ⟨char, rfl, same⟩
      | succ offset =>
        obtain ⟨next, isNext, sameNext⟩ := found offset other (by simpa using isOther)
        exact ⟨next, by simpa using isNext, sameNext⟩
    · intro found offset other isOther
      obtain ⟨next, isNext, sameNext⟩ := found (offset + 1) other (by simpa using isOther)
      exact ⟨next, by simpa [Nat.add_comm, Nat.add_left_comm] using isNext, sameNext⟩
  | case4 letter tag char text differs =>
    constructor
    · intro dropped
      cases dropped
    · rintro ⟨found, -⟩
      obtain ⟨first, isFirst, same⟩ := found 0 letter rfl
      obtain rfl : char = first := by simpa using isFirst
      exact absurd same differs

variable {index : ℕ}

theorem tagAt_drop {start : ℕ} :
    TagAt tag (text.drop start) index ↔ TagAt tag text (start + index) := by
  simp only [TagAt, getElem?_drop, Nat.add_assoc]

theorem tagAt_cons {char : Char} : TagAt tag (char :: text) (index + 1) ↔ TagAt tag text index := by
  rw [Nat.add_comm, ← tagAt_drop]
  rfl

theorem tagAt_length (found : TagAt tag text index) (some : tag ≠ []) :
    index + tag.length ≤ text.length := by
  have positive : 0 < tag.length := length_pos_iff.mpr some
  have isLast : tag[tag.length - 1]? = Option.some tag[tag.length - 1] :=
    getElem?_eq_getElem (by omega)
  obtain ⟨char, isChar, -⟩ := found _ _ isLast
  have inside := (List.getElem?_eq_some_iff.mp isChar).1
  omega

/-- The first of a tag: no other is before it. -/
theorem splitAtTag_eq_some {inner : Text} (split : splitAtTag tag text = some (inner, rest)) :
    ∃ stop, TagAt tag text stop ∧ (∀ index < stop, ¬ TagAt tag text index) ∧
      inner = text.take stop ∧ rest = text.drop (stop + tag.length) := by
  induction text generalizing inner with
  | nil =>
    obtain ⟨dropped, isDropped, pair⟩ := Option.map_eq_some_iff.mp split
    cases pair
    obtain ⟨found, rfl⟩ := dropTag_eq_some.mp isDropped
    exact ⟨0, found, nofun, rfl, by rw [Nat.zero_add]⟩
  | cons char text ih =>
    rw [splitAtTag] at split
    split at split
    · rename_i dropped isDropped
      cases split
      obtain ⟨found, rfl⟩ := dropTag_eq_some.mp isDropped
      exact ⟨0, found, nofun, rfl, by rw [Nat.zero_add]⟩
    · rename_i notHere
      obtain ⟨⟨before, after⟩, isSplit, pair⟩ := Option.map_eq_some_iff.mp split
      cases pair
      obtain ⟨stop, found, isFirst, rfl, rfl⟩ := ih isSplit
      refine ⟨stop + 1, tagAt_cons.mpr found, ?_, rfl, ?_⟩
      · intro index before other
        cases index with
        | zero =>
          rw [dropTag_eq_some.mpr ⟨other, rfl⟩] at notHere
          cases notHere
        | succ index => exact isFirst index (by omega) (tagAt_cons.mp other)
      · rw [Nat.add_right_comm, drop_succ_cons]

theorem not_tagAt_of_splitAtTag (none : splitAtTag tag text = none) (index : ℕ) :
    ¬ TagAt tag text index := by
  induction text generalizing index with
  | nil =>
    intro found
    have first : TagAt tag [] 0 := by
      intro offset letter isLetter
      obtain ⟨char, isChar, -⟩ := found offset letter isLetter
      cases isChar
    rw [splitAtTag, dropTag_eq_some.mpr ⟨first, rfl⟩] at none
    cases none
  | cons char text ih =>
    rw [splitAtTag] at none
    split at none
    · cases none
    · rename_i notHere
      intro found
      cases index with
      | zero =>
        rw [dropTag_eq_some.mpr ⟨found, rfl⟩] at notHere
        cases notHere
      | succ index => exact ih (Option.map_eq_none_iff.mp none) index (tagAt_cons.mp found)

/-- Two tags that never share a character. -/
def Apart (opening closing : Text) : Prop :=
  ∀ text start stop, TagAt opening text start → TagAt closing text stop →
    start + opening.length ≤ stop ∨ stop + closing.length ≤ start

variable {first : Char} {letters others : Text}

/-- A tag with a first character that its other ones are not has none of that character in it. -/
theorem not_tagAt_inside {start offset : ℕ} (once : ∀ letter ∈ letters, Distinct letter first)
    (found : TagAt (first :: letters) text start) (inside : offset < letters.length) :
    ¬ TagAt (first :: others) text (start + (offset + 1)) := by
  intro other
  obtain ⟨char, isChar, same⟩ := found (offset + 1) letters[offset]
    (by rw [getElem?_cons_succ, getElem?_eq_getElem inside])
  obtain ⟨char', isChar', isFirst⟩ := other 0 first rfl
  rw [Nat.add_zero, isChar, Option.some.injEq] at isChar'
  subst isChar'
  rw [once _ (getElem_mem inside) _ same] at isFirst
  cases isFirst

variable {second : Char}

/-- Tags of which only the first characters can be alike, and of which the second ones differ. -/
theorem apart_of_letters {other : Char} {opening closing : Text}
    (opensOnce : ∀ letter ∈ second :: opening, Distinct letter first)
    (closesOnce : ∀ letter ∈ other :: closing, Distinct letter first)
    (differ : Distinct second other) :
    Apart (first :: second :: opening) (first :: other :: closing) := by
  intro text start stop opens closes
  rcases Nat.lt_trichotomy start stop with before | rfl | after
  · left
    by_contra overlap
    obtain ⟨offset, rfl⟩ : ∃ offset, stop = start + (offset + 1) := ⟨stop - start - 1, by omega⟩
    rw [length_cons] at overlap
    exact not_tagAt_inside opensOnce opens (by omega) closes
  · obtain ⟨next, isNext, same⟩ := opens 1 second rfl
    obtain ⟨next', isNext', same'⟩ := closes 1 other rfl
    rw [isNext, Option.some.injEq] at isNext'
    subst isNext'
    rw [differ _ same] at same'
    cases same'
  · right
    by_contra overlap
    obtain ⟨offset, rfl⟩ : ∃ offset, start = stop + (offset + 1) := ⟨start - stop - 1, by omega⟩
    rw [length_cons] at overlap
    exact not_tagAt_inside closesOnce closes (by omega) opens

/-! ## Parts of a text -/

def IsTag (tag piece : Text) : Prop := piece.length = tag.length ∧ TagAt tag piece 0

variable {piece : Text}

/-- What every case of every letter of a tag is like, its characters are like. -/
theorem IsTag.forall_mem (isTag : IsTag tag piece) {p : ℕ → Prop}
    (each : ∀ letter ∈ tag, ∀ code ∈ letterCodes letter, p code) :
    ∀ char ∈ piece, p char.toNat := by
  intro char isChar
  obtain ⟨index, inside, rfl⟩ := getElem_of_mem isChar
  rw [isTag.1] at inside
  obtain ⟨char', isChar', same⟩ := isTag.2 index tag[index] (getElem?_eq_getElem inside)
  obtain ⟨_, rfl⟩ := List.getElem?_eq_some_iff.mp isChar'
  simp only [Nat.zero_add] at same
  exact each _ (getElem_mem inside) _ (mem_letterCodes.mpr same)

theorem exists_of_dropTag (dropped : dropTag tag text = some rest) :
    ∃ piece, IsTag tag piece ∧ text = piece ++ rest := by
  obtain ⟨found, rfl⟩ := dropTag_eq_some.mp dropped
  have inText : tag.length ≤ text.length := by
    cases tag with
    | nil => exact Nat.zero_le _
    | cons letter tag =>
      have length := tagAt_length found (cons_ne_nil _ _)
      omega
  refine ⟨text.take tag.length, ⟨length_take_of_le inText, ?_⟩,
    (take_append_drop _ _).symm⟩
  intro offset letter isLetter
  obtain ⟨char, isChar, same⟩ := found offset letter isLetter
  have inTag : offset < tag.length := (List.getElem?_eq_some_iff.mp isLetter).1
  rw [Nat.zero_add] at isChar ⊢
  exact ⟨char, by rw [getElem?_take_of_lt inTag, isChar], same⟩

/-- A tag in the second part of a text. -/
theorem tagAt_append_right :
    TagAt tag (piece ++ rest) (piece.length + index) ↔ TagAt tag rest index := by
  rw [← tagAt_drop, drop_left]

theorem TagAt.append (found : TagAt tag piece index) (rest : Text) :
    TagAt tag (piece ++ rest) index := by
  intro offset letter isLetter
  obtain ⟨char, isChar, same⟩ := found offset letter isLetter
  have inside := (List.getElem?_eq_some_iff.mp isChar).1
  exact ⟨char, by rw [getElem?_append_left inside, isChar], same⟩

/-- A part of a text at whose characters no tag begins. -/
def TagFree (tag piece rest : Text) : Prop :=
  ∀ index < piece.length, ¬ TagAt tag (piece ++ rest) index

theorem TagFree.append {more : Text} (first : TagFree tag piece (more ++ rest))
    (second : TagFree tag more rest) : TagFree tag (piece ++ more) rest := by
  intro index inside
  rw [append_assoc]
  by_cases early : index < piece.length
  · exact first index early
  · obtain ⟨offset, rfl⟩ := Nat.exists_eq_add_of_le (Nat.le_of_not_lt early)
    rw [length_append] at inside
    rw [tagAt_append_right]
    exact second offset (by omega)

/-- A tag is behind the parts where none begins. -/
theorem TagFree.exists_eq (free : TagFree tag piece rest)
    (found : TagAt tag (piece ++ rest) index) :
    ∃ offset, index = piece.length + offset ∧ TagAt tag rest offset := by
  have behind : piece.length ≤ index := Nat.le_of_not_lt fun inside => free index inside found
  obtain ⟨offset, rfl⟩ := Nat.exists_eq_add_of_le behind
  exact ⟨offset, rfl, tagAt_append_right.mp found⟩

/-- No tag begins in a part where each first letter of it is followed by another second one. -/
theorem tagFree_of_letters
    (each : ∀ (index : ℕ) (char : Char), piece[index]? = some char →
      sameLetter first char.toNat = true → ∃ next, piece[index + 1]? = some next ∧
        sameLetter second next.toNat = false) :
    TagFree (first :: second :: letters) piece rest := by
  intro index inside found
  obtain ⟨char, isChar, isFirst⟩ := found 0 first rfl
  obtain ⟨next, isNext, isSecond⟩ := found 1 second rfl
  rw [Nat.add_zero, getElem?_append_left inside] at isChar
  obtain ⟨next', isNext', differs⟩ := each index char isChar isFirst
  have inside' := (List.getElem?_eq_some_iff.mp isNext').1
  rw [getElem?_append_left inside', isNext', Option.some.injEq] at isNext
  subst isNext
  rw [differs] at isSecond
  cases isSecond

/-- No tag begins in another one with another second letter. -/
theorem tagFree_of_isTag {other : Char} (isTag : IsTag (first :: other :: others) piece)
    (once : ∀ letter ∈ other :: others, Distinct letter first) (differ : Distinct other second) :
    TagFree (first :: second :: letters) piece rest := by
  obtain ⟨length, found⟩ := isTag
  refine tagFree_of_letters fun index char isChar isFirst => ?_
  have inside := (List.getElem?_eq_some_iff.mp isChar).1
  cases index with
  | zero =>
    obtain ⟨next, isNext, same⟩ := found 1 other rfl
    exact ⟨next, by simpa using isNext, differ _ same⟩
  | succ index =>
    rw [length, length_cons] at inside
    have inTag : index < (other :: others).length := by omega
    obtain ⟨char', isChar', same⟩ := found (index + 1) (other :: others)[index]
      (by rw [getElem?_cons_succ, getElem?_eq_getElem inTag])
    rw [Nat.zero_add, isChar, Option.some.injEq] at isChar'
    subst isChar'
    rw [once _ (getElem_mem inTag) _ same] at isFirst
    cases isFirst

/-- Tags with one first letter begin together, or one is behind the other. -/
theorem IsTag.tagAt_cases (isTag : IsTag (first :: letters) piece)
    (once : ∀ letter ∈ letters, Distinct letter first)
    (found : TagAt (first :: others) (piece ++ rest) index) :
    index = 0 ∨ ∃ offset, index = piece.length + offset ∧ TagAt (first :: others) rest offset := by
  by_cases behind : piece.length ≤ index
  · obtain ⟨offset, rfl⟩ := Nat.exists_eq_add_of_le behind
    exact .inr ⟨offset, rfl, tagAt_append_right.mp found⟩
  · left
    by_contra later
    obtain ⟨offset, rfl⟩ : ∃ offset, index = 0 + (offset + 1) := ⟨index - 1, by omega⟩
    have length := isTag.1
    rw [length_cons] at length
    exact not_tagAt_inside once (isTag.2.append rest) (by omega) found

/-- Where the second part of a text begins with no letter of a tag but its first one, a tag is in
one of the parts. -/
theorem tagAt_append_cases
    (barrier : ∀ char, rest.head? = some char → ∀ letter ∈ letters,
      sameLetter letter char.toNat = false) (found : TagAt (first :: letters)
    (piece ++ rest) index) :
    TagAt (first :: letters) piece index ∨
      ∃ offset, index = piece.length + offset ∧ TagAt (first :: letters) rest offset := by
  by_cases behind : piece.length ≤ index
  · obtain ⟨offset, rfl⟩ := Nat.exists_eq_add_of_le behind
    exact .inr ⟨offset, rfl, tagAt_append_right.mp found⟩
  · left
    intro offset letter isLetter
    obtain ⟨char, isChar, same⟩ := found offset letter isLetter
    refine ⟨char, ?_, same⟩
    by_cases inside : index + offset < piece.length
    · rwa [getElem?_append_left inside] at isChar
    · -- Then the tag has the first character of the second part.
      exfalso
      obtain ⟨before, isBefore⟩ : ∃ before, index + (before + 1) = piece.length :=
        ⟨piece.length - index - 1, by omega⟩
      have inTag := (List.getElem?_eq_some_iff.mp isLetter).1
      rw [length_cons] at inTag
      have inLetters : before < letters.length := by omega
      obtain ⟨char', isChar', same'⟩ := found (before + 1) letters[before]
        (by rw [getElem?_cons_succ, getElem?_eq_getElem inLetters])
      rw [isBefore, getElem?_append_right (Nat.le_refl _), Nat.sub_self,
        ← head?_eq_getElem?] at isChar'
      rw [barrier char' isChar' _ (getElem_mem inLetters)] at same'
      cases same'

/-! ## Text between tags -/

/-- The text between an opening tag at the beginning and the first closing tag behind it. -/
def between (opening closing text : Text) : Option (Text × Text) :=
  (dropTag opening text).bind (splitAtTag closing)

/-- An opening tag and the first closing tag behind it. -/
structure Between (opening closing text : Text) (start stop : ℕ) : Prop where
  opens : TagAt opening text start
  closes : TagAt closing text stop
  later : start + opening.length ≤ stop
  first : ∀ index, start + opening.length ≤ index → index < stop → ¬ TagAt closing text index

/-- Where the last match is: no tag before it is left open, and none behind it is closed. -/
structure LastBetween (opening closing text : Text) (start stop : ℕ) : Prop extends
    Between opening closing text start stop where
  closed : ∀ index < start, TagAt opening text index → ∃ closer,
    index + opening.length ≤ closer ∧ closer + closing.length ≤ start ∧ TagAt closing text closer
  last : ∀ index closer, stop + closing.length ≤ index → index + opening.length ≤ closer →
    TagAt opening text index → ¬ TagAt closing text closer

section Between

variable {opening closing : Text}

variable {text inner : Text}

theorem between_eq_some {rest : Text} (found : between opening closing text = some (inner, rest)) :
    ∃ stop, Between opening closing text 0 stop ∧
      inner = (text.take stop).drop opening.length ∧ rest = text.drop (stop + closing.length) := by
  obtain ⟨after, isAfter, split⟩ := Option.bind_eq_some_iff.mp found
  obtain ⟨opens, rfl⟩ := dropTag_eq_some.mp isAfter
  obtain ⟨stop, closes, first, rfl, rfl⟩ := splitAtTag_eq_some split
  refine ⟨opening.length + stop, ⟨opens, tagAt_drop.mp closes, by omega, ?_⟩, ?_, ?_⟩
  · intro index low high isTag
    obtain ⟨offset, rfl⟩ := Nat.exists_eq_add_of_le (show opening.length ≤ index by omega)
    exact first offset (by omega) (tagAt_drop.mpr isTag)
  · rw [take_drop, Nat.add_comm]
  · rw [drop_drop, Nat.add_assoc]

theorem not_tagAt_of_between (none : between opening closing text = none)
    (opens : TagAt opening text 0) {closer : ℕ} (later : opening.length ≤ closer) :
    ¬ TagAt closing text closer := by
  rw [between, dropTag_eq_some.mpr ⟨opens, rfl⟩, Option.bind_some] at none
  obtain ⟨offset, rfl⟩ := Nat.exists_eq_add_of_le later
  intro isTag
  exact not_tagAt_of_splitAtTag none offset (tagAt_drop.mpr isTag)

theorem findall_eq_drop (matchAt : Text → Option (Text × Text)) (passed : ℕ) (text : Text) :
    findall matchAt passed text = findall matchAt 0 (text.drop passed) := by
  induction text generalizing passed with
  | nil => rw [drop_nil]; rfl
  | cons char text ih =>
    cases passed with
    | zero => rfl
    | succ passed => exact ih passed

/-- Where no opening tag can begin, nothing matches. -/
theorem findall_append {before : Text}
    (free : ∀ char ∈ before, ∀ rest, dropTag opening (char :: rest) = none) :
    findall (between opening closing) 0 (before ++ text) =
      findall (between opening closing) 0 text := by
  induction before with
  | nil => rfl
  | cons char before ih =>
    have none : between opening closing (char :: (before ++ text)) = Option.none := by
      rw [between, free char mem_cons_self, Option.bind_none]
    rw [cons_append, findall, none]
    exact ih fun other isOther => free other (mem_cons_of_mem _ isOther)

/-- The matches of a text that begins with one are that one and those of the rest. -/
theorem findall_cons {rest : Text} (some : text ≠ []) (positive : 0 < closing.length)
    (found : between opening closing text = Option.some (inner, rest)) :
    findall (between opening closing) 0 text =
      inner :: findall (between opening closing) 0 rest := by
  obtain ⟨stop, range, -, rfl⟩ := between_eq_some found
  have inText := tagAt_length range.closes (length_pos_iff.mp positive)
  cases text with
  | nil => exact absurd rfl some
  | cons char text =>
    rw [length_cons] at inText
    obtain ⟨passed, isPassed⟩ : ∃ passed, stop + closing.length = passed + 1 :=
      ⟨stop + closing.length - 1, by omega⟩
    have length : text.length - ((char :: text).drop (stop + closing.length)).length = passed := by
      rw [length_drop, length_cons]
      omega
    rw [findall, found]
    dsimp only
    rw [length, isPassed, drop_succ_cons, findall_eq_drop]

theorem not_tagAt_of_findall (positive : 0 < closing.length)
    (none : findall (between opening closing) 0 text = []) {index closer : ℕ}
    (later : index + opening.length ≤ closer) (opens : TagAt opening text index) :
    ¬ TagAt closing text closer := by
  induction text generalizing index closer with
  | nil =>
    intro closes
    have inText := tagAt_length closes (length_pos_iff.mp positive)
    rw [length_nil] at inText
    omega
  | cons char text ih =>
    cases found : between opening closing (char :: text) with
    | some found' =>
      rw [findall_cons (cons_ne_nil _ _) positive found] at none
      cases none
    | none =>
      cases index with
      | zero => exact not_tagAt_of_between found opens (by omega)
      | succ index =>
        rw [findall, found] at none
        obtain ⟨closer, rfl⟩ : ∃ before, closer = before + 1 := ⟨closer - 1, by omega⟩
        intro closes
        exact ih none (by omega) (tagAt_cons.mp opens) (tagAt_cons.mp closes)

theorem LastBetween.of_drop {start stop shift : ℕ}
    (range : LastBetween opening closing (text.drop shift) start stop)
    (closed : ∀ index < shift, TagAt opening text index → ∃ closer,
      index + opening.length ≤ closer ∧ closer + closing.length ≤ shift + start ∧
        TagAt closing text closer) :
    LastBetween opening closing text (shift + start) (shift + stop) where
  opens := tagAt_drop.mp range.opens
  closes := tagAt_drop.mp range.closes
  later := by
    have later := range.later
    omega
  first index low high isTag := by
    obtain ⟨offset, rfl⟩ := Nat.exists_eq_add_of_le (show shift ≤ index by omega)
    exact range.first offset (by omega) (by omega) (tagAt_drop.mpr isTag)
  closed index before isTag := by
    by_cases early : index < shift
    · exact closed index early isTag
    · obtain ⟨offset, rfl⟩ := Nat.exists_eq_add_of_le (Nat.le_of_not_lt early)
      obtain ⟨closer, behind, inside, closes⟩ :=
        range.closed offset (by omega) (tagAt_drop.mpr isTag)
      exact ⟨shift + closer, by omega, by omega, tagAt_drop.mp closes⟩
  last index closer behind later isTag closes := by
    obtain ⟨offset, rfl⟩ := Nat.exists_eq_add_of_le (show shift ≤ index by omega)
    obtain ⟨offset', rfl⟩ := Nat.exists_eq_add_of_le (show shift ≤ closer by omega)
    exact range.last offset offset' (by omega) (by omega) (tagAt_drop.mpr isTag)
      (tagAt_drop.mpr closes)

theorem lastBetween_of_findall (apart : Apart opening closing) (positive : 0 < closing.length)
    (found : (findall (between opening closing) 0 text).getLast? = some inner) :
    ∃ start stop, LastBetween opening closing text start stop ∧
      inner = (text.take stop).drop (start + opening.length) := by
  induction length : text.length using Nat.strong_induction_on generalizing text with
  | _ size ih =>
    cases text with
    | nil => cases found
    | cons char text =>
      cases first : between opening closing (char :: text) with
      | none =>
        rw [findall, first] at found
        obtain ⟨start, stop, range, rfl⟩ := ih text.length
          (by rw [← length, length_cons]; omega) found rfl
        have shifted : LastBetween opening closing (char :: text) (1 + start) (1 + stop) := by
          refine LastBetween.of_drop range ?_
          intro index early opens
          obtain rfl : index = 0 := by omega
          have later := range.later
          have closes : TagAt closing (char :: text) (stop + 1) :=
            tagAt_cons.mpr range.closes
          exact absurd closes (not_tagAt_of_between first opens (by omega))
        refine ⟨_, _, shifted, ?_⟩
        rw [Nat.add_comm 1 stop, take_succ_cons, Nat.add_assoc, Nat.add_comm 1, drop_succ_cons]
      | some pair =>
        obtain ⟨inner', rest⟩ := pair
        rw [findall_cons (cons_ne_nil _ _) positive first] at found
        obtain ⟨stop, range, rfl, rfl⟩ := between_eq_some first
        have inText := tagAt_length range.closes (length_pos_iff.mp positive)
        cases others : findall (between opening closing) 0
            ((char :: text).drop (stop + closing.length)) with
        | nil =>
          -- The only match is the last one.
          rw [others, getLast?_singleton, Option.some.injEq] at found
          subst found
          refine ⟨0, stop, ⟨range, nofun, ?_⟩, by rw [Nat.zero_add]⟩
          intro index closer behind later opens closes
          obtain ⟨offset, rfl⟩ := Nat.exists_eq_add_of_le behind
          obtain ⟨offset', rfl⟩ :=
            Nat.exists_eq_add_of_le (show stop + closing.length ≤ closer by omega)
          exact not_tagAt_of_findall positive others (by omega) (tagAt_drop.mpr opens)
            (tagAt_drop.mpr closes)
        | cons next more =>
          rw [others, getLast?_cons_cons, ← others] at found
          obtain ⟨start', stop', range', rfl⟩ := ih _
            (by rw [← length, length_drop]; omega) found rfl
          refine ⟨_, _, range'.of_drop ?_, ?_⟩
          · intro index early opens
            refine ⟨stop, ?_, by omega, range.closes⟩
            rcases apart _ _ _ opens range.closes with before | after
            · exact before
            · omega
          · rw [take_drop, drop_drop, ← Nat.add_assoc _ start']

end Between

end Geobench.Library
