import Geobench.Rewards.GeoFormat

/-!
# Where the tags of a completion are

A completion that `BLOCK_RE` matches has a think text, an opening answer tag, an answer text and
a closing answer tag, with blanks and think tags around them: its `BlockLayout`. The strip of
special tokens only takes away what has no answer tags (`exists_stripSpecialTokens`).

**Every answer tag** of such a completion is one of those two, or it is in one of the two texts
(`BlockLayout.opener_cases`, `BlockLayout.closer_cases`). So the last answer block is the one that
the format wants, if the texts leave no opening tag unclosed and close none too early
(`BlockLayout.last_of_inPlace`).
-/

namespace Geobench.Rewards

open Library List

/-! ## Parts without answer tags -/

/-- A part of a text in which no answer tag begins. -/
def AnswerFree (piece : Text) : Prop :=
  ∀ rest, TagFree openAnswer piece rest ∧ TagFree closeAnswer piece rest

variable {piece : Text}

theorem AnswerFree.append {more : Text} (first : AnswerFree piece) (second : AnswerFree more) :
    AnswerFree (piece ++ more) :=
  fun rest => ⟨(first (more ++ rest)).1.append (second rest).1,
    (first (more ++ rest)).2.append (second rest).2⟩

def Blank (piece : Text) : Prop := ∀ char ∈ piece, isBlank char = true

/-- No letter of these is a blank character. -/
def NotBlank (letter : Char) : Prop := ∀ code ∈ letterCodes letter, isBlankCode code = false

instance (letter : Char) : Decidable (NotBlank letter) := by
  unfold NotBlank
  infer_instance

theorem NotBlank.sameLetter {letter char : Char} (notBlank : NotBlank letter)
    (blank : isBlank char = true) : sameLetter letter char.toNat = false := by
  cases same : Library.sameLetter letter char.toNat with
  | false => rfl
  | true =>
    have not := notBlank _ (mem_letterCodes.mpr same)
    rw [isBlank, not] at blank
    cases blank

theorem AnswerFree.of_blank (blank : Blank piece) : AnswerFree piece := by
  have notBlank : NotBlank '<' := by decide
  have each : ∀ (second : Char) (index : ℕ) (char : Char), piece[index]? = some char →
      sameLetter '<' char.toNat = true → ∃ next, piece[index + 1]? = some next ∧
        sameLetter second next.toNat = false := by
    intro second index char isChar same
    have isBlank := blank char (mem_of_getElem? isChar)
    rw [notBlank.sameLetter isBlank] at same
    cases same
  exact fun rest => ⟨tagFree_of_letters (each 'a'), tagFree_of_letters (each '/')⟩

theorem AnswerFree.of_openThink (isTag : IsTag openThink piece) : AnswerFree piece :=
  fun _ => ⟨tagFree_of_isTag isTag (by decide) (by decide),
    tagFree_of_isTag isTag (by decide) (by decide)⟩

/-- A closing tag of both kinds begins alike, and they differ in their third letters. -/
theorem AnswerFree.of_closeThink (isTag : IsTag closeThink piece) : AnswerFree piece := by
  refine fun rest => ⟨tagFree_of_isTag isTag (by decide) (by decide), ?_⟩
  have once : ∀ letter ∈ "/think>".toList, Distinct letter '<' := by decide
  have differ : Distinct 't' 'a' := by decide
  intro index inside found
  cases index with
  | zero =>
    obtain ⟨char, isChar, same⟩ := found 2 'a' rfl
    obtain ⟨char', isChar', same'⟩ := (isTag.2.append rest) 2 't' rfl
    rw [isChar, Option.some.injEq] at isChar'
    subst isChar'
    rw [differ _ same'] at same
    cases same
  | succ index =>
    rw [isTag.1] at inside
    have inTag : index < "/think>".toList.length := Nat.lt_of_succ_lt_succ inside
    have notInside : ¬ TagAt closeAnswer (piece ++ rest) (0 + (index + 1)) :=
      not_tagAt_inside once (isTag.2.append rest) inTag
    rw [Nat.zero_add] at notInside
    exact notInside found

theorem AnswerFree.imEnd : AnswerFree imEnd := by
  have each : ∀ second, sameLetter second '|'.toNat = false → ∀ (index : ℕ) (char : Char),
      Rewards.imEnd[index]? = some char → sameLetter '<' char.toNat = true →
        ∃ next, Rewards.imEnd[index + 1]? = some next ∧ sameLetter second next.toNat = false := by
    intro second differs index char isChar same
    cases index with
    | zero => exact ⟨'|', rfl, differs⟩
    | succ index =>
      have later : ∀ char ∈ Rewards.imEnd.tail, sameLetter '<' char.toNat = false := by decide
      have isLater : char ∈ Rewards.imEnd.tail := mem_of_getElem? isChar
      rw [later char isLater] at same
      cases same
  exact fun rest => ⟨tagFree_of_letters (each 'a' (by decide)),
    tagFree_of_letters (each '/' (by decide))⟩

/-! ## Stripped texts -/

variable (completion : Text)

/-- A completion is what is left of it between blanks, and a part without answer tags. -/
theorem exists_strip :
    ∃ lead tail, Blank lead ∧ Blank tail ∧ completion = lead ++ (strip isBlank completion ++ tail) :=
  exists_of_strip isBlank completion

/-- A special token is stripped with the blanks before it, or there is none. -/
theorem stripSpecialTokens_cases :
    strip isBlank completion = stripSpecialTokens completion ∨ ∃ blanks, Blank blanks ∧
      strip isBlank completion = stripSpecialTokens completion ++ (blanks ++ imEnd) := by
  unfold stripSpecialTokens
  dsimp only
  split
  · rename_i ends
    obtain ⟨before, isText⟩ := isSuffixOf_iff_suffix.mp ends
    obtain ⟨after, blank, isBefore⟩ := exists_of_rdropWhile isBlank before
    refine .inr ⟨after, blank, ?_⟩
    rw [← isText, length_append, Nat.add_sub_cancel, take_left, ← append_assoc, ← isBefore]
  · exact .inl rfl

theorem exists_stripSpecialTokens :
    ∃ tail, AnswerFree tail ∧ strip isBlank completion = stripSpecialTokens completion ++ tail := by
  rcases stripSpecialTokens_cases completion with same | ⟨blanks, blank, isText⟩
  · exact ⟨[], AnswerFree.of_blank nofun, by rw [append_nil, same]⟩
  · exact ⟨blanks ++ imEnd, (AnswerFree.of_blank blank).append AnswerFree.imEnd, isText⟩

/-! ## The layout -/

/-- A character before which no tag can end. -/
def Stops (char : Char) : Prop := isBlank char = true ∨ sameLetter '<' char.toNat = true

theorem Stops.letter {char : Char} (stops : Stops char) {letter : Char}
    (notBlank : NotBlank letter) (distinct : Distinct letter '<') :
    sameLetter letter char.toNat = false := by
  rcases stops with blank | isFirst
  · exact notBlank.sameLetter blank
  · cases same : sameLetter letter char.toNat with
    | false => rfl
    | true =>
      rw [distinct _ same] at isFirst
      cases isFirst

/-- A text begins with a blank or a tag. -/
def Barrier (text : Text) : Prop := ∀ char, text.head? = some char → Stops char

theorem Barrier.of_blank {pad rest : Text} (blank : Blank pad) (barrier : Barrier rest) :
    Barrier (pad ++ rest) := by
  cases pad with
  | nil => exact barrier
  | cons first pad =>
    intro char isChar
    cases isChar
    exact .inl (blank first mem_cons_self)

theorem Barrier.of_isTag {letters : Text} (isTag : IsTag ('<' :: letters) piece) (rest : Text) :
    Barrier (piece ++ rest) := by
  obtain ⟨first, isFirst, same⟩ := (isTag.2.append rest) 0 '<' rfl
  intro char isChar
  rw [head?_eq_getElem?, isFirst] at isChar
  cases isChar
  exact .inr same

/-- The characters that are around the two texts, and those of JSON texts outside of strings. -/
def isLoose (char : Char) : Bool :=
  isPlain char || isBlank char ||
    "</thinkaswer>".toList.any fun letter => sameLetter letter char.toNat

def Loose (piece : Text) : Prop := ∀ char ∈ piece, isLoose char = true

theorem Loose.append {more : Text} (first : Loose piece) (second : Loose more) :
    Loose (piece ++ more) := by
  intro char isChar
  rcases mem_append.mp isChar with isFirst | isSecond
  · exact first char isFirst
  · exact second char isSecond

theorem Loose.of_blank (blank : Blank piece) : Loose piece := by
  intro char isChar
  rw [isLoose, blank char isChar, Bool.or_true, Bool.true_or]

theorem Loose.of_isTag {tag : Text} (isTag : IsTag tag piece)
    (letters : ∀ letter ∈ tag, letter ∈ "</thinkaswer>".toList) : Loose piece := by
  have same : ∀ letter ∈ tag, ∀ code ∈ letterCodes letter,
      ("</thinkaswer>".toList.any fun letter => sameLetter letter code) = true := by
    intro letter isLetter code isCode
    exact any_eq_true.mpr ⟨letter, letters letter isLetter, mem_letterCodes.mp isCode⟩
  have isLetter := isTag.forall_mem same
  intro char isChar
  rw [isLoose, isLetter char isChar, Bool.or_true]

/-- A text with a think text and an answer block, and what is around them. -/
structure BlockLayout (text think answer : Text) where
  head : Text
  middle : Text
  opener : Text
  pad : Text
  pad' : Text
  closer : Text
  tail : Text
  isText : text =
    head ++ (think ++ (middle ++ (opener ++ (pad ++ (answer ++ (pad' ++ (closer ++ tail)))))))
  freeHead : AnswerFree head
  freeMiddle : AnswerFree middle
  freeTail : AnswerFree tail
  looseHead : Loose head
  looseMiddle : Loose middle
  barrier : ∀ rest, Barrier (middle ++ rest)
  isOpener : IsTag openAnswer opener
  isCloser : IsTag closeAnswer closer
  blankPad : Blank pad
  blankPad' : Blank pad'
  stripped : strip isBlank answer = answer

/-- What `closingAnswer` finds. -/
theorem exists_of_closingAnswer {text answer : Text} (found : closingAnswer text = some answer) :
    ∃ before opener pad pad' closer after,
      text = before ++ (opener ++ (pad ++ (answer ++ (pad' ++ (closer ++ after))))) ∧
        Blank before ∧ IsTag openAnswer opener ∧ Blank pad ∧ Blank pad' ∧
          IsTag closeAnswer closer ∧ Blank after ∧ strip isBlank answer = answer := by
  obtain ⟨body, isBody, found⟩ := Option.bind_eq_some_iff.mp found
  dsimp only at found
  split at found
  · rename_i closes
    obtain ⟨inner, isInner⟩ : ∃ inner, (body.rdropWhile isBlank).take
        ((body.rdropWhile isBlank).length - closeAnswer.length) = inner := ⟨_, rfl⟩
    rw [isInner] at found
    cases found
    obtain ⟨before, blankBefore, isText⟩ := exists_of_dropWhile isBlank text
    obtain ⟨opener, isOpener, isRest⟩ := exists_of_dropTag isBody
    obtain ⟨after, blankAfter, isBody⟩ := exists_of_rdropWhile isBlank body
    obtain ⟨closer, isCloser, isEnd⟩ := exists_of_dropTag closes
    obtain ⟨pad, pad', blankPad, blankPad', isPadded⟩ := exists_of_strip isBlank inner
    have isBlock : body.rdropWhile isBlank = inner ++ closer := by
      rw [append_nil] at isEnd
      rw [← isEnd, ← isInner, take_append_drop]
    refine ⟨before, opener, pad, pad', closer, after, ?_, blankBefore, isOpener, blankPad,
      blankPad', isCloser, blankAfter, strip_strip isBlank _⟩
    calc text = before ++ (opener ++ body) := by rw [← isRest, ← isText]
      _ = before ++ (opener ++ ((inner ++ closer) ++ after)) := by rw [← isBlock, ← isBody]
      _ = before ++ (opener ++ (((pad ++ (strip isBlank inner ++ pad')) ++ closer) ++ after)) := by
          rw [← isPadded]
      _ = _ := by simp only [append_assoc]
  · cases found

theorem exists_of_closingThink {text think answer : Text}
    (found : closingThink text = some (think, answer)) :
    ∃ closer after, IsTag closeThink closer ∧ text = think ++ (closer ++ after) ∧
      closingAnswer after = some answer := by
  induction text generalizing think with
  | nil => cases found
  | cons char text ih =>
    rw [closingThink] at found
    split at found
    · rename_i answer' closes
      cases found
      obtain ⟨after, isTag, closing⟩ := Option.bind_eq_some_iff.mp closes
      obtain ⟨closer, isCloser, isText⟩ := exists_of_dropTag isTag
      exact ⟨closer, after, isCloser, isText, closing⟩
    · obtain ⟨⟨think', answer'⟩, isBlocks, pair⟩ := Option.map_eq_some_iff.mp found
      cases pair
      obtain ⟨closer, after, isCloser, isText, closing⟩ := ih isBlocks
      exact ⟨closer, after, isCloser, by rw [isText]; rfl, closing⟩

/-- What `BLOCK_RE` matches has a layout, with any blanks before it, and behind it any part
without answer tags. -/
theorem exists_blockLayout {content think answer lead tail : Text}
    (isMatch : matchBlocks content = some (think, answer)) (blank : Blank lead)
    (free : AnswerFree tail) :
    strip isBlank think = think ∧ strip isBlank answer = answer ∧
      Nonempty (BlockLayout (lead ++ (content ++ tail)) think answer) := by
  obtain ⟨⟨think', answer'⟩, isBlocks, pair⟩ := Option.map_eq_some_iff.mp isMatch
  cases pair
  obtain ⟨rest, isRest, closing⟩ := Option.bind_eq_some_iff.mp isBlocks
  obtain ⟨opener, isOpener, rfl⟩ := exists_of_dropTag isRest
  obtain ⟨closer, after, isCloser, rfl, closingAfter⟩ := exists_of_closingThink closing
  obtain ⟨before, opener', pad, pad', closer', after', rfl, blankBefore, isOpener', blankPad,
    blankPad', isCloser', blankAfter, stripped⟩ := exists_of_closingAnswer closingAfter
  obtain ⟨padThink, padThink', blankThink, blankThink', isThink⟩ := exists_of_strip isBlank think'
  refine ⟨strip_strip isBlank _, stripped, ⟨{
    head := lead ++ (opener ++ padThink)
    middle := padThink' ++ (closer ++ before)
    opener := opener'
    pad := pad
    pad' := pad'
    closer := closer'
    tail := after' ++ tail
    isText := ?_
    freeHead := .append (.of_blank blank) (.append (.of_openThink isOpener) (.of_blank blankThink))
    freeMiddle :=
      .append (.of_blank blankThink') (.append (.of_closeThink isCloser) (.of_blank blankBefore))
    freeTail := .append (.of_blank blankAfter) free
    looseHead := .append (.of_blank blank)
      (.append (.of_isTag isOpener (by decide)) (.of_blank blankThink))
    looseMiddle := .append (.of_blank blankThink')
      (.append (.of_isTag isCloser (by decide)) (.of_blank blankBefore))
    barrier := fun rest => ?_
    isOpener := isOpener'
    isCloser := isCloser'
    blankPad := blankPad
    blankPad' := blankPad'
    stripped := stripped }⟩⟩
  · conv_lhs => rw [isThink]
    simp only [append_assoc]
  · rw [append_assoc, append_assoc]
    exact .of_blank blankThink' (.of_isTag isCloser _)

/-- An opening answer tag that no closing one follows. -/
def LeavesOpen (text : Text) : Prop :=
  ∃ index, TagAt openAnswer text index ∧ ∀ closer, index + openAnswer.length ≤ closer →
    ¬ TagAt closeAnswer text closer

/-- The think text leaves no answer block open, and the answer text does not close its own. -/
def InPlace (think answer : Text) : Prop :=
  ¬ LeavesOpen think ∧ ∀ index, ¬ TagAt closeAnswer answer index

theorem answerTags_apart : Apart openAnswer closeAnswer :=
  apart_of_letters (by decide) (by decide) (by decide)

namespace BlockLayout

variable {text think answer : Text} (layout : BlockLayout text think answer)

/-- Where the answer block begins. -/
def start : ℕ := layout.head.length + (think.length + layout.middle.length)

/-- Where the answer text begins. -/
def body : ℕ := layout.start + (layout.opener.length + layout.pad.length)

/-- Where the closing tag is. -/
def stop : ℕ := layout.body + (answer.length + layout.pad'.length)

theorem opens : TagAt openAnswer text layout.start := by
  have found := layout.isOpener.2.append
    (layout.pad ++ (answer ++ (layout.pad' ++ (layout.closer ++ layout.tail))))
  have behindThink : TagAt openAnswer (think ++ (layout.middle ++ (layout.opener ++ _)))
      (think.length + (layout.middle.length + 0)) :=
    tagAt_append_right.mpr (tagAt_append_right.mpr found)
  have located : TagAt openAnswer (layout.head ++ _) layout.start :=
    tagAt_append_right.mpr behindThink
  rwa [← layout.isText] at located

theorem closes : TagAt closeAnswer text layout.stop := by
  have found := layout.isCloser.2.append layout.tail
  have behindPad : TagAt closeAnswer (layout.pad ++ (answer ++ (layout.pad' ++ _)))
      (layout.pad.length + (answer.length + (layout.pad'.length + 0))) :=
    tagAt_append_right.mpr (tagAt_append_right.mpr (tagAt_append_right.mpr found))
  have behindThink : TagAt closeAnswer (think ++ (layout.middle ++ (layout.opener ++ _)))
      (think.length + (layout.middle.length + (layout.opener.length + _))) :=
    tagAt_append_right.mpr (tagAt_append_right.mpr (tagAt_append_right.mpr behindPad))
  have located : TagAt closeAnswer (layout.head ++ _) (layout.head.length + _) :=
    tagAt_append_right.mpr behindThink
  rw [← layout.isText] at located
  have same : layout.stop = layout.head.length + (think.length + (layout.middle.length +
      (layout.opener.length + (layout.pad.length + (answer.length + (layout.pad'.length + 0)))))) := by
    rw [stop, body, start]
    omega
  rw [same]
  exact located

theorem tagAt_think {tag : Text} {offset : ℕ} (found : TagAt tag think offset) :
    TagAt tag text (layout.head.length + offset) := by
  have located : TagAt tag (layout.head ++ _) (layout.head.length + offset) :=
    tagAt_append_right.mpr (found.append (layout.middle ++ (layout.opener ++ (layout.pad ++
      (answer ++ (layout.pad' ++ (layout.closer ++ layout.tail)))))))
  rwa [← layout.isText] at located

theorem tagAt_answer {tag : Text} {offset : ℕ} (found : TagAt tag answer offset) :
    TagAt tag text (layout.body + offset) := by
  have isText : text = (layout.head ++ (think ++ (layout.middle ++ (layout.opener ++ layout.pad)))) ++
      (answer ++ (layout.pad' ++ (layout.closer ++ layout.tail))) := by
    simpa only [append_assoc] using layout.isText
  have before : (layout.head ++ (think ++ (layout.middle ++ (layout.opener ++ layout.pad)))).length =
      layout.body := by
    simp only [length_append, body, start]
    omega
  have located : TagAt tag
      ((layout.head ++ (think ++ (layout.middle ++ (layout.opener ++ layout.pad)))) ++
        (answer ++ (layout.pad' ++ (layout.closer ++ layout.tail))))
      ((layout.head ++ (think ++ (layout.middle ++ (layout.opener ++ layout.pad)))).length +
        offset) :=
    tagAt_append_right.mpr (found.append _)
  rwa [← isText, before] at located

/-- What is behind the answer text stops a tag. -/
theorem barrier_answer : Barrier (layout.pad' ++ (layout.closer ++ layout.tail)) :=
  .of_blank layout.blankPad' (.of_isTag layout.isCloser _)

variable {index : ℕ}

/-- Where a tag is: in one of the two texts, or where the answer block opens or closes. -/
theorem tag_cases {letters : Text}
    (plain : ∀ letter ∈ letters, NotBlank letter ∧ Distinct letter '<')
    (free : ∀ piece, AnswerFree piece → ∀ rest, TagFree ('<' :: letters) piece rest)
    (found : TagAt ('<' :: letters) text index) :
    (∃ offset, index = layout.head.length + offset ∧ TagAt ('<' :: letters) think offset) ∨
      (index = layout.start ∧ ∃ rest, TagAt ('<' :: letters) (layout.opener ++ rest) 0) ∨
      (∃ offset, index = layout.body + offset ∧ TagAt ('<' :: letters) answer offset) ∨
      (index = layout.stop ∧ ∃ rest, TagAt ('<' :: letters) (layout.closer ++ rest) 0) := by
  have stops : ∀ rest, Barrier rest → ∀ char, rest.head? = some char → ∀ letter ∈ letters,
      sameLetter letter char.toNat = false := fun rest barrier char isChar letter isLetter =>
    (barrier char isChar).letter (plain letter isLetter).1 (plain letter isLetter).2
  rw [layout.isText] at found
  obtain ⟨toThink, isIndex, inThink⟩ := (free _ layout.freeHead _).exists_eq found
  rcases tagAt_append_cases (stops _ (layout.barrier _)) inThink with
    inThink | ⟨toMiddle, isThink, inMiddle⟩
  · exact .inl ⟨toThink, isIndex, inThink⟩
  obtain ⟨toOpener, isMiddle, inOpener⟩ := (free _ layout.freeMiddle _).exists_eq inMiddle
  rcases layout.isOpener.tagAt_cases (by decide) inOpener with rfl | ⟨toPad, isOpener, inPad⟩
  · refine .inr (.inl ⟨?_, _, inOpener⟩)
    rw [start]
    omega
  obtain ⟨toAnswer, isPad, inAnswer⟩ :=
    (free _ (AnswerFree.of_blank layout.blankPad) _).exists_eq inPad
  rcases tagAt_append_cases (stops _ layout.barrier_answer) inAnswer with
    inAnswer | ⟨toPad', isAnswer, inPad'⟩
  · refine .inr (.inr (.inl ⟨toAnswer, ?_, inAnswer⟩))
    rw [body, start]
    omega
  obtain ⟨toCloser, isPad', inCloser⟩ :=
    (free _ (AnswerFree.of_blank layout.blankPad') _).exists_eq inPad'
  rcases layout.isCloser.tagAt_cases (by decide) inCloser with rfl | ⟨toTail, -, inTail⟩
  · refine .inr (.inr (.inr ⟨?_, _, inCloser⟩))
    rw [stop, body, start]
    omega
  · have inside := tagAt_length inTail (cons_ne_nil _ _)
    rw [length_cons] at inside
    exact absurd (inTail.append []) (free _ layout.freeTail [] toTail (by omega))

/-- Opening answer tags are in the think text, before the answer text, or in it. -/
theorem opener_cases (found : TagAt openAnswer text index) :
    (∃ offset, index = layout.head.length + offset ∧ TagAt openAnswer think offset) ∨
      index = layout.start ∨
        ∃ offset, index = layout.body + offset ∧ TagAt openAnswer answer offset := by
  rcases layout.tag_cases (by decide) (fun piece free rest => (free rest).1) found with
    inThink | ⟨isStart, -⟩ | inAnswer | ⟨-, rest, atCloser⟩
  · exact .inl inThink
  · exact .inr (.inl isStart)
  · exact .inr (.inr inAnswer)
  · have freeCloser : TagFree openAnswer layout.closer rest :=
      tagFree_of_isTag layout.isCloser (by decide) (by decide)
    have some : 0 < layout.closer.length := by
      rw [layout.isCloser.1]
      decide
    exact absurd atCloser (freeCloser 0 some)

/-- Closing answer tags are in one of the two texts, or behind the answer text. -/
theorem closer_cases (found : TagAt closeAnswer text index) :
    (∃ offset, index = layout.head.length + offset ∧ TagAt closeAnswer think offset) ∨
      (∃ offset, index = layout.body + offset ∧ TagAt closeAnswer answer offset) ∨
        index = layout.stop := by
  rcases layout.tag_cases (by decide) (fun piece free rest => (free rest).2) found with
    inThink | ⟨-, rest, atOpener⟩ | inAnswer | ⟨isStop, -⟩
  · exact .inl inThink
  · have freeOpener : TagFree closeAnswer layout.opener rest :=
      tagFree_of_isTag layout.isOpener (by decide) (by decide)
    have some : 0 < layout.opener.length := by
      rw [layout.isOpener.1]
      decide
    exact absurd atOpener (freeOpener 0 some)
  · exact .inr (.inl inAnswer)
  · exact .inr (.inr isStop)

/-! ## The last answer block -/

theorem start_le_stop : layout.start + openAnswer.length ≤ layout.stop := by
  have length := layout.isOpener.1
  rw [stop, body]
  omega

theorem exists_last (layout : BlockLayout text think answer) :
    ∃ start stop, LastBetween openAnswer closeAnswer text start stop ∧
    (answerBlocks text).getLast? =
      some (strip isBlank ((text.take stop).drop (start + openAnswer.length))) := by
  have positive : 0 < closeAnswer.length := by decide
  cases isLast : (findall (between openAnswer closeAnswer) 0 text).getLast? with
  | none =>
    have none := getLast?_eq_none_iff.mp isLast
    exact absurd layout.closes
      (not_tagAt_of_findall positive none layout.start_le_stop layout.opens)
  | some inner =>
    obtain ⟨start, stop, range, rfl⟩ := lastBetween_of_findall answerTags_apart positive isLast
    exact ⟨start, stop, range, by rw [answerBlocks, getLast?_map, isLast, Option.map_some]⟩

/-- Where the last block is: it is the wanted one if all tags are in their places. -/
theorem last_of_inPlace (inPlace : InPlace think answer) {start stop : ℕ}
    (range : LastBetween openAnswer closeAnswer text start stop) :
    start = layout.start ∧ stop = layout.stop := by
  have openLength : openAnswer.length = 8 := rfl
  have closeLength : closeAnswer.length = 9 := rfl
  have later := range.later
  have behindThink : layout.head.length + think.length ≤ layout.start := by
    rw [BlockLayout.start]
    omega
  have startBody : layout.start + openAnswer.length ≤ layout.body := by
    have opener := layout.isOpener.1
    rw [body]
    omega
  rcases layout.opener_cases range.opens with ⟨offset, rfl, inThink⟩ | rfl | ⟨offset, rfl, inAnswer⟩
  · -- A block that begins in the think text ends there, and the wanted one is behind it.
    exfalso
    have closed : ∃ closer, offset + openAnswer.length ≤ closer ∧ TagAt closeAnswer think closer := by
      by_contra none
      exact inPlace.1 ⟨offset, inThink, fun closer after closes => none ⟨closer, after, closes⟩⟩
    obtain ⟨closer, after, closes⟩ := closed
    have inside := tagAt_length closes (by decide)
    have closesText := layout.tagAt_think closes
    have early : stop ≤ layout.head.length + closer := by
      by_contra late
      exact range.first _ (by omega) (by omega) closesText
    exact range.last layout.start layout.stop (by omega) layout.start_le_stop layout.opens
      layout.closes
  · refine ⟨rfl, ?_⟩
    rcases layout.closer_cases range.closes with ⟨offset, rfl, inThink⟩ | ⟨offset, rfl, closes⟩ | rfl
    · have inside := tagAt_length inThink (by decide)
      omega
    · exact absurd closes (inPlace.2 offset)
    · rfl
  · -- A block that begins in the answer text leaves the wanted one open before it.
    exfalso
    have inside := tagAt_length inAnswer (by decide)
    have bodyStop : layout.body + answer.length ≤ layout.stop := by
      rw [BlockLayout.stop]
      omega
    obtain ⟨closer, after, before, closes⟩ := range.closed layout.start (by omega) layout.opens
    rcases layout.closer_cases closes with
      ⟨offset', rfl, inThink⟩ | ⟨offset', rfl, closesAnswer⟩ | rfl
    · have inside := tagAt_length inThink (by decide)
      omega
    · exact inPlace.2 offset' closesAnswer
    · omega

/-- The wanted block is the answer text. -/
theorem strip_block : strip isBlank
    ((text.take layout.stop).drop (layout.start + openAnswer.length)) = answer := by
  have isText : text = (layout.head ++ (think ++ (layout.middle ++ layout.opener))) ++
      ((layout.pad ++ (answer ++ layout.pad')) ++ (layout.closer ++ layout.tail)) := by
    simpa only [append_assoc] using layout.isText
  have before : (layout.head ++ (think ++ (layout.middle ++ layout.opener))).length =
      layout.start + openAnswer.length := by
    simp only [length_append, start, layout.isOpener.1]
    omega
  have inner : (layout.pad ++ (answer ++ layout.pad')).length =
      layout.stop - (layout.start + openAnswer.length) := by
    simp only [length_append, stop, body, layout.isOpener.1]
    omega
  have rest : text.drop (layout.start + openAnswer.length) =
      (layout.pad ++ (answer ++ layout.pad')) ++ (layout.closer ++ layout.tail) :=
    (congrArg (drop _) isText).trans (drop_left' before)
  have block : (text.take layout.stop).drop (layout.start + openAnswer.length) =
      layout.pad ++ (answer ++ layout.pad') := by
    calc (text.take layout.stop).drop (layout.start + openAnswer.length)
        = (text.drop (layout.start + openAnswer.length)).take
            (layout.stop - (layout.start + openAnswer.length)) := drop_take
      _ = ((layout.pad ++ (answer ++ layout.pad')) ++ (layout.closer ++ layout.tail)).take
            (layout.stop - (layout.start + openAnswer.length)) := by
          rw [rest]
      _ = layout.pad ++ (answer ++ layout.pad') := take_left' inner
  rw [block, strip_append isBlank answer layout.blankPad layout.blankPad', layout.stripped]

theorem getLast?_answerBlocks (layout : BlockLayout text think answer)
    (inPlace : InPlace think answer) : (answerBlocks text).getLast? = some answer := by
  obtain ⟨start, stop, range, isLast⟩ := layout.exists_last
  obtain ⟨rfl, rfl⟩ := layout.last_of_inPlace inPlace range
  rw [isLast, layout.strip_block]

end BlockLayout

end Geobench.Rewards
