import Geobench.Library.JsonDecode
import Mathlib.Data.List.Find

/-!
# JSON texts that go on

A scan does not look behind the value it finds, but for numbers, whose digits could go on. So it
finds the same value in a longer text, if what is left of the text begins with no character of a
number (`LocalScan`, `localScan_scanOnce`). **What follows an object is left of it**
(`scanOnce_append`), and a text with more behind an object is no JSON text (`loads_append`).
-/

namespace Geobench.Library

open List

/-! ## Parts that go on -/

section TakeWhile

variable {kind : Char → Bool} {text : Text}

/-- A run of characters of one kind that has ended does not change when the text goes on. -/
theorem dropWhile_append_of_ended (ended : text.dropWhile kind ≠ []) (more : Text) :
    (text ++ more).dropWhile kind = text.dropWhile kind ++ more := by
  rw [dropWhile_append, if_neg]
  rwa [List.isEmpty_iff]

theorem takeWhile_append_of_ended (ended : text.dropWhile kind ≠ []) (more : Text) :
    (text ++ more).takeWhile kind = text.takeWhile kind := by
  have whole := takeWhile_append_dropWhile (p := kind) (l := text ++ more)
  rw [dropWhile_append_of_ended ended, ← append_assoc, append_cancel_right_eq] at whole
  have own := takeWhile_append_dropWhile (p := kind) (l := text)
  exact append_cancel_right (whole.trans own.symm)

end TakeWhile

theorem skipSpace_append {text : Text} (ended : skipSpace text ≠ []) (more : Text) :
    skipSpace (text ++ more) = skipSpace text ++ more :=
  dropWhile_append_of_ended ended more

variable {rest : Text}

theorem skipSpace_append_cons {text : Text} {char : Char} (isCons : skipSpace text = char :: rest)
    (more : Text) : skipSpace (text ++ more) = char :: (rest ++ more) := by
  rw [skipSpace_append (by rw [isCons]; exact cons_ne_nil _ _), isCons, cons_append]

/-! ## Strings -/

theorem scanBody_append {text : Text} {value : CodePoints}
    (isOk : scanBody text = .ok (value, rest)) (more : Text) :
    scanBody (text ++ more) = .ok (value, rest ++ more) := by
  fun_induction scanBody text generalizing value rest with
  | case1 => cases isOk
  | case2 rest' =>
    cases isOk
    rfl
  | case3 first second third fourth rest' notHex => cases isOk
  | case4 first second third fourth rest' code isHex ih =>
    obtain ⟨⟨value', rest''⟩, isRest, same⟩ := map_eq_ok.mp isOk
    cases same
    simp only [cons_append, scanBody, isHex, ih isRest]
    rfl
  | case5 escape rest' notHex notEscape => cases isOk
  | case6 escape rest' notHex code isEscape ih =>
    obtain ⟨⟨value', rest''⟩, isRest, same⟩ := map_eq_ok.mp isOk
    cases same
    have notUnicode : escape ≠ 'u' := by
      rintro rfl
      cases isEscape
    rw [cons_append, cons_append, scanBody, isEscape, ih isRest]
    · rfl
    · intro first second third fourth after isUnicode
      exact absurd isUnicode notUnicode
  | case7 char rest' notQuote notHex notEscape low => cases isOk
  | case8 char rest' notQuote notHex notEscape high ih =>
    obtain ⟨⟨value', rest''⟩, isRest, same⟩ := map_eq_ok.mp isOk
    cases same
    have notEscape' : char ≠ '\\' := by
      rintro rfl
      cases rest' with
      | nil => cases isRest
      | cons escape rest' => exact notEscape escape rest' rfl rfl
    rw [cons_append, scanBody, if_neg high, ih isRest]
    · rfl
    · exact notQuote
    · intro first second third fourth after isEscape
      exact absurd isEscape notEscape'
    · intro escape after isEscape
      exact absurd isEscape notEscape'

theorem scanString_append {text : Text} {value : CodePoints}
    (isOk : scanString text = .ok (value, rest)) (more : Text) :
    scanString (text ++ more) = .ok (value, rest ++ more) := by
  obtain ⟨⟨value', rest'⟩, isBody, same⟩ := map_eq_ok.mp isOk
  cases same
  rw [scanString, scanBody_append isBody more]
  rfl

/-! ## Numbers -/

/-- A text that begins with no character of a number: a number before it has ended. -/
def EndsNumber (text : Text) : Prop :=
  ∃ char rest, text = char :: rest ∧ isJsonDigit char = false ∧ char ≠ '.' ∧ char ≠ 'e' ∧ char ≠ 'E'

theorem scanSign_append {signs : List Char} {text : Text} (some : text ≠ []) (more : Text) :
    scanSign signs (text ++ more) = ((scanSign signs text).1, (scanSign signs text).2 ++ more) := by
  cases text with
  | nil => exact absurd rfl some
  | cons sign rest =>
    rw [cons_append, scanSign, scanSign]
    split <;> rfl

theorem scanInteger_append {text digits : Text} (isOk : scanInteger text = some (digits, rest))
    (more : Text) (ended : rest ≠ []) :
    scanInteger (text ++ more) = some (digits, rest ++ more) := by
  cases text with
  | nil => cases isOk
  | cons char text =>
    by_cases zero : char = '0'
    · subst zero
      cases isOk
      rfl
    · have unfolds : ∀ text, scanInteger (char :: text) =
          if (char :: text).takeWhile isJsonDigit = [] then none
          else some ((char :: text).takeWhile isJsonDigit,
            (char :: text).dropWhile isJsonDigit) := by
        intro text
        rw [scanInteger]
        intro rest isZero
        exact zero (List.cons.inj isZero).1
      rw [unfolds] at isOk
      split at isOk
      · cases isOk
      · rename_i someDigits
        cases isOk
        rw [cons_append, unfolds, ← cons_append, takeWhile_append_of_ended ended,
          dropWhile_append_of_ended ended, if_neg someDigits]

theorem scanFraction_append {text : Text} (more : Text) (ended : (scanFraction text).2 ≠ [])
    (noPoint : (scanFraction text).2.head? ≠ some '.') :
    scanFraction (text ++ more) = ((scanFraction text).1, (scanFraction text).2 ++ more) := by
  cases text with
  | nil => exact absurd rfl ended
  | cons char text =>
    by_cases point : char = '.'
    · subst point
      have unfolds : ∀ text, scanFraction ('.' :: text) =
          if text.takeWhile isJsonDigit = [] then ([], '.' :: text)
          else ('.' :: text.takeWhile isJsonDigit, text.dropWhile isJsonDigit) := fun _ => rfl
      rw [unfolds] at ended noPoint
      rw [cons_append, unfolds, unfolds]
      by_cases noDigits : text.takeWhile isJsonDigit = []
      · rw [if_pos noDigits] at noPoint
        exact absurd rfl noPoint
      · rw [if_neg noDigits] at ended
        rw [takeWhile_append_of_ended ended, dropWhile_append_of_ended ended, if_neg noDigits,
          if_neg noDigits]
    · have unfolds : ∀ text, scanFraction (char :: text) = ([], char :: text) := by
        intro text
        unfold scanFraction
        split
        · rename_i isPoint
          exact absurd (List.cons.inj isPoint).1 point
        · rfl
      rw [cons_append, unfolds, unfolds]
      rfl

theorem scanExponent_append {text : Text} (more : Text) (ended : (scanExponent text).2 ≠ [])
    (noLetter : ∀ char, (scanExponent text).2.head? = some char → char ≠ 'e' ∧ char ≠ 'E') :
    scanExponent (text ++ more) = ((scanExponent text).1, (scanExponent text).2 ++ more) := by
  cases text with
  | nil => exact absurd rfl ended
  | cons letter text =>
    rw [cons_append]
    simp only [scanExponent] at ended noLetter ⊢
    by_cases exponent : (letter = 'e' ∨ letter = 'E') ∧
        (scanSign ['+', '-'] text).2.takeWhile isJsonDigit ≠ []
    · rw [if_pos exponent] at ended
      have some : text ≠ [] := by
        rintro rfl
        exact exponent.2 rfl
      rw [scanSign_append some more]
      dsimp only
      rw [takeWhile_append_of_ended ended, dropWhile_append_of_ended ended, if_pos exponent,
        if_pos exponent]
    · rw [if_neg exponent] at noLetter
      have notLetter : ¬ (letter = 'e' ∨ letter = 'E') := by
        rintro (rfl | rfl)
        · exact (noLetter _ rfl).1 rfl
        · exact (noLetter _ rfl).2 rfl
      rw [if_neg exponent, if_neg fun both => notLetter both.1]
      rfl

variable {value : JsonValue}

theorem scanNumber_append {text : Text} (isOk : scanNumber text = .ok (value, rest))
    (ends : EndsNumber rest) (more : Text) :
    scanNumber (text ++ more) = .ok (value, rest ++ more) := by
  obtain ⟨last, after, rfl, notDigit, notPoint, notLow, notHigh⟩ := ends
  have some : text ≠ [] := by
    rintro rfl
    cases isOk
  unfold scanNumber at isOk ⊢
  dsimp only at isOk ⊢
  rw [scanSign_append some more]
  split at isOk
  · cases isOk
  rename_i integer isInteger
  split at isOk
  · cases isOk
  rename_i notLong
  obtain ⟨isValue, isRest⟩ := Prod.mk.inj (Except.ok.inj isOk)
  have exponentEnded : (scanExponent (scanFraction integer.2).2).2 ≠ [] := by
    rw [isRest]
    exact cons_ne_nil _ _
  have noLetter : ∀ char, (scanExponent (scanFraction integer.2).2).2.head? = Option.some char →
      char ≠ 'e' ∧ char ≠ 'E' := by
    rw [isRest]
    rintro char same
    cases same
    exact ⟨notLow, notHigh⟩
  have fractionEnded : (scanFraction integer.2).2 ≠ [] := by
    intro isEmpty
    rw [isEmpty] at exponentEnded
    exact exponentEnded rfl
  have noPoint : (scanFraction integer.2).2.head? ≠ Option.some '.' := by
    intro isPoint
    obtain ⟨tail, isText⟩ : ∃ tail, (scanFraction integer.2).2 = '.' :: tail := by
      cases isText : (scanFraction integer.2).2 with
      | nil => exact absurd isText fractionEnded
      | cons char tail =>
        rw [isText] at isPoint
        cases isPoint
        exact ⟨tail, rfl⟩
    have unfolds : scanExponent ('.' :: tail) = ([], '.' :: tail) := by
      rw [scanExponent, if_neg]
      rintro ⟨isLetter, -⟩
      exact absurd isLetter (by decide)
    rw [isText, unfolds] at isRest
    exact notPoint (List.cons.inj isRest).1.symm
  have integerEnded : integer.2 ≠ [] := by
    intro isEmpty
    rw [isEmpty] at fractionEnded
    exact fractionEnded rfl
  rw [scanInteger_append isInteger more integerEnded]
  dsimp only
  rw [scanFraction_append more fractionEnded noPoint]
  dsimp only
  rw [scanExponent_append more exponentEnded noLetter]
  dsimp only
  rw [if_neg notLong, isRest, isValue]

/-! ## Values -/

/-- A scan that does not look behind what it finds, but for the end of a number. -/
def LocalScan {α : Type} (scan : Text → Except LoadsError (α × Text)) : Prop :=
  ∀ text rest value more, scan text = .ok (value, rest) → EndsNumber rest →
    scan (text ++ more) = .ok (value, rest ++ more)

theorem endsNumber_of_skipSpace {text : Text} {char : Char} (isCons : skipSpace text = char :: rest)
    (ends : ∀ rest, EndsNumber (char :: rest)) : EndsNumber text := by
  cases text with
  | nil => cases isCons
  | cons first text =>
    cases space : isJsonSpace first with
    | true =>
      simp only [isJsonSpace, Bool.or_eq_true, decide_eq_true_eq] at space
      rcases space with ((rfl | rfl) | rfl) | rfl <;> exact ⟨_, _, rfl, by decide⟩
    | false =>
      rw [skipSpace, dropWhile_cons, space] at isCons
      cases isCons
      exact ends _

section Containers

variable {scan : Text → Except LoadsError (JsonValue × Text)}

variable {α : Type} {element : Text → Except LoadsError (α × Text)} {closing : Char}

/-- Where nothing is no element, there is one in front. -/
theorem scanElements_ne_ok (empty : element [] = .error .jsonDecodeError) (fuel : ℕ)
    (result : List α × Text) : scanElements element closing fuel [] ≠ .ok result := by
  cases fuel with
  | zero =>
    intro isOk
    cases isOk
  | succ fuel =>
    rw [scanElements, empty]
    intro isOk
    cases isOk

variable {rest : Text}

theorem scanElements_append (isClosing : closing ∈ [']', '}']) (localScan : LocalScan element)
    (empty : element [] = .error .jsonDecodeError) {fuel : ℕ} {text : Text} {items : List α}
    (isOk : scanElements element closing fuel text = .ok (items, rest)) (extra : ℕ) (more : Text) :
    scanElements element closing (fuel + extra) (text ++ more) = .ok (items, rest ++ more) := by
  induction fuel generalizing text items with
  | zero => cases isOk
  | succ fuel ih =>
    rw [scanElements] at isOk
    obtain ⟨⟨value, after⟩, isValue, isOk⟩ := bind_eq_ok.mp isOk
    rw [Nat.succ_add, scanElements]
    dsimp only at isOk
    split at isOk
    · cases isOk
    rename_i char rest' isRest
    have ends (isFollower : char ∈ [',', ']', '}']) : EndsNumber after := by
      refine endsNumber_of_skipSpace isRest fun _ => ⟨_, _, rfl, ?_⟩
      simp only [mem_cons, not_mem_nil, or_false] at isFollower
      rcases isFollower with rfl | rfl | rfl <;> decide
    split at isOk
    · rename_i closes
      cases isOk
      rw [localScan _ _ _ more isValue (ends (closes ▸ mem_cons_of_mem _ isClosing))]
      simp only [bind, Except.bind, skipSpace_append_cons isRest more, if_pos closes]
    rename_i notClosing
    split at isOk
    · rename_i isComma
      obtain ⟨⟨items', rest''⟩, isItems, same⟩ := map_eq_ok.mp isOk
      cases same
      have some : skipSpace rest' ≠ [] := by
        intro isEmpty
        rw [isEmpty] at isItems
        exact scanElements_ne_ok empty _ _ isItems
      rw [localScan _ _ _ more isValue (ends (isComma ▸ mem_cons_self))]
      simp only [bind, Except.bind, skipSpace_append_cons isRest more, if_neg notClosing,
        if_pos isComma, skipSpace_append some more, ih isItems]
      rfl
    · cases isOk

theorem scanBracketed_append {β : Type} (isClosing : closing ∈ [']', '}'])
    (localScan : LocalScan element) (empty : element [] = .error .jsonDecodeError)
    {make : List α → β} {text : Text} {value : β}
    (isOk : scanBracketed element closing make text = .ok (value, rest)) (more : Text) :
    scanBracketed element closing make (text ++ more) = .ok (value, rest ++ more) := by
  unfold scanBracketed at isOk ⊢
  split at isOk
  · cases isOk
  rename_i char rest' isRest
  rw [skipSpace_append_cons isRest more]
  dsimp only
  split at isOk
  · rename_i closes
    cases isOk
    rw [if_pos closes]
  · rename_i notClosing
    obtain ⟨⟨elements, after⟩, isElements, same⟩ := map_eq_ok.mp isOk
    cases same
    have longer := scanElements_append isClosing localScan empty isElements more.length more
    rw [← length_append, cons_append] at longer
    rw [if_neg notClosing, longer]
    rfl

theorem localScan_scanMember (localScan : LocalScan scan)
    (empty : scan [] = .error .jsonDecodeError) : LocalScan (scanMember scan) := by
  intro text rest member more isOk ends
  unfold scanMember at isOk
  split at isOk
  · rename_i text'
    obtain ⟨⟨key, after⟩, isKey, isOk⟩ := bind_eq_ok.mp isOk
    dsimp only at isOk
    split at isOk
    · rename_i rest' isColon
      obtain ⟨⟨value, rest''⟩, isValue, same⟩ := map_eq_ok.mp isOk
      cases same
      have some : skipSpace rest' ≠ [] := by
        intro isEmpty
        rw [isEmpty, empty] at isValue
        cases isValue
      rw [cons_append, scanMember, scanString_append isKey more]
      simp only [bind, Except.bind, skipSpace_append_cons isColon more, skipSpace_append some more,
        localScan _ _ _ more isValue ends]
      rfl
    · cases isOk
  · cases isOk

theorem scanObject_append (localScan : LocalScan scan) (empty : scan [] = .error .jsonDecodeError)
    {text : Text} {value : JsonValue} (isOk : scanObject scan text = .ok (value, rest))
    (more : Text) : scanObject scan (text ++ more) = .ok (value, rest ++ more) := by
  rw [scanObject_eq] at isOk ⊢
  exact scanBracketed_append (by decide) (localScan_scanMember localScan empty) rfl isOk more

end Containers

/-! ## Scalars -/

variable {word : Text × JsonValue}

/-- Of the words that are values, one at most begins a text. -/
theorem eq_of_isPrefixOf {text : Text} {other : Text × JsonValue} (isWord : word ∈ jsonWords)
    (isOther : other ∈ jsonWords) (begins : word.1.isPrefixOf text = true)
    (otherBegins : other.1.isPrefixOf text = true) : other.1 = word.1 := by
  have heads : ∀ first ∈ jsonWords.map Prod.fst, ∀ second ∈ jsonWords.map Prod.fst,
      second.head? = first.head? → second = first := by decide
  have some : ∀ first ∈ jsonWords.map Prod.fst, first ≠ [] := by decide
  have head : ∀ first ∈ jsonWords.map Prod.fst, first.isPrefixOf text = true →
      first.head? = text.head? := by
    intro first isFirst begins
    obtain ⟨rest, rfl⟩ := List.isPrefixOf_iff_prefix.mp begins
    obtain ⟨char, tail, rfl⟩ := exists_cons_of_ne_nil (some first isFirst)
    rfl
  have memWord := mem_map_of_mem (f := Prod.fst) isWord
  have memOther := mem_map_of_mem (f := Prod.fst) isOther
  exact heads _ memWord _ memOther ((head _ memOther otherBegins).trans (head _ memWord begins).symm)

/-- A number begins with a digit, or with a sign and a digit. -/
theorem head_of_scanNumber {text : Text} (isOk : scanNumber text = .ok (value, rest)) :
    ∃ digit tail, isJsonDigit digit = true ∧ (text = digit :: tail ∨ text = '-' :: digit :: tail) := by
  have integer : ∀ text digits rest, scanInteger text = some (digits, rest) →
      ∃ digit tail, isJsonDigit digit = true ∧ text = digit :: tail := by
    intro text digits rest isInteger
    cases text with
    | nil => cases isInteger
    | cons char tail =>
      refine ⟨char, tail, ?_, rfl⟩
      by_contra notDigit
      unfold scanInteger at isInteger
      split at isInteger
      · rename_i isZero
        obtain rfl := (List.cons.inj isZero).1
        exact notDigit rfl
      · rw [takeWhile_cons, if_neg notDigit, if_pos rfl] at isInteger
        cases isInteger
  unfold scanNumber at isOk
  dsimp only at isOk
  split at isOk
  · cases isOk
  · rename_i digits isInteger
    obtain ⟨digit, tail, isDigit, isText⟩ := integer _ _ _ isInteger
    refine ⟨digit, tail, isDigit, ?_⟩
    cases text with
    | nil =>
      cases isText
    | cons sign text =>
      rw [scanSign] at isText
      split at isText
      · rename_i isSign
        rw [mem_singleton.mp isSign, ← isText]
        exact .inr rfl
      · exact .inl isText

theorem isPrefixOf_append {word text : Text} (begins : word.isPrefixOf text = true) (more : Text) :
    word.isPrefixOf (text ++ more) = true := by
  obtain ⟨rest, rfl⟩ := List.isPrefixOf_iff_prefix.mp begins
  exact List.isPrefixOf_iff_prefix.mpr ⟨rest ++ more, (append_assoc _ _ _).symm⟩

/-- A text that goes on begins with the word it began with. -/
theorem isPrefixOf_word {text : Text} {other : Text × JsonValue} (isWord : word ∈ jsonWords)
    (isOther : other ∈ jsonWords) (begins : word.1.isPrefixOf text = true) (more : Text) :
    other.1.isPrefixOf (text ++ more) = other.1.isPrefixOf text := by
  cases isPrefix : other.1.isPrefixOf (text ++ more) with
  | true =>
    have same := eq_of_isPrefixOf isWord isOther (isPrefixOf_append begins more) isPrefix
    rw [same, begins]
  | false =>
    cases shorter : other.1.isPrefixOf text with
    | false => rfl
    | true =>
      rw [isPrefixOf_append shorter more] at isPrefix
      cases isPrefix

/-- A number that goes on begins with no word. -/
theorem not_isPrefixOf_number {text : Text} (isOk : scanNumber text = .ok (value, rest))
    (isWord : word ∈ jsonWords) (more : Text) : word.1.isPrefixOf (text ++ more) = false := by
  have noDigits : ∀ word ∈ jsonWords.map Prod.fst, 2 ≤ word.length ∧
      ∀ char ∈ word.take 2, isJsonDigit char = false := by decide
  obtain ⟨long, noDigit⟩ := noDigits _ (mem_map_of_mem isWord)
  obtain ⟨digit, tail, isDigit, isText⟩ := head_of_scanNumber isOk
  have isEarly : digit ∈ (text ++ more).take 2 := by
    rcases isText with rfl | rfl <;> simp
  cases isPrefix : word.1.isPrefixOf (text ++ more) with
  | false => rfl
  | true =>
    obtain ⟨after, isAfter⟩ := List.isPrefixOf_iff_prefix.mp isPrefix
    rw [← isAfter, take_append_of_le_length long] at isEarly
    rw [noDigit digit isEarly] at isDigit
    cases isDigit

theorem scanScalar_append {text : Text} (isOk : scanScalar text = .ok (value, rest))
    (ends : EndsNumber rest) (more : Text) :
    scanScalar (text ++ more) = .ok (value, rest ++ more) := by
  unfold scanScalar at isOk ⊢
  cases isFound : jsonWords.find? fun word => word.1.isPrefixOf text with
  | some word =>
    rw [isFound] at isOk
    cases isOk
    have isWord := mem_of_find?_eq_some isFound
    have begins : word.1.isPrefixOf text = true := by simpa using find?_some isFound
    have found : (jsonWords.find? fun word => word.1.isPrefixOf (text ++ more)) = some word := by
      rw [← isFound]
      exact find?_congr fun other isOther => isPrefixOf_word isWord isOther begins more
    have inside : word.1.length ≤ text.length :=
      (List.isPrefixOf_iff_prefix.mp begins).length_le
    rw [found, ← drop_append_of_le_length inside]
  | none =>
    rw [isFound] at isOk
    have notFound : (jsonWords.find? fun word => word.1.isPrefixOf (text ++ more)) = none := by
      rw [find?_eq_none]
      intro word isWord begins
      rw [not_isPrefixOf_number isOk isWord more] at begins
      cases begins
    rw [notFound]
    exact scanNumber_append isOk ends more

/-! ## Values and texts -/

theorem localScan_scanValue {enter : Option (Text → Except LoadsError (JsonValue × Text))}
    (localScan : ∀ scan, enter = some scan →
      LocalScan scan ∧ scan [] = .error .jsonDecodeError) :
    LocalScan (scanValue enter) := by
  intro text rest value more isOk ends
  unfold scanValue at isOk
  split at isOk
  · obtain ⟨⟨string, after⟩, isString, same⟩ := map_eq_ok.mp isOk
    cases same
    rw [cons_append, scanValue, scanString_append isString more]
    rfl
  · split at isOk
    · cases isOk
    · rename_i rest' scan
      obtain ⟨isLocal, empty⟩ := localScan scan rfl
      rw [scanArray_eq] at isOk
      have longer := scanBracketed_append (by decide) isLocal empty isOk more
      rwa [← scanArray_eq] at longer
  · split at isOk
    · cases isOk
    · rename_i rest' scan
      obtain ⟨isLocal, empty⟩ := localScan scan rfl
      exact scanObject_append isLocal empty isOk more
  · rename_i notString notArray notObject
    have isScalar := scanScalar_append isOk ends more
    obtain ⟨char, tail, rfl⟩ : ∃ char tail, text = char :: tail := by
      cases text with
      | nil => cases isOk
      | cons char tail => exact ⟨char, tail, rfl⟩
    rw [cons_append] at isScalar ⊢
    unfold scanValue
    split
    · rename_i isString
      rw [(List.cons.inj isString).1] at notString
      exact absurd rfl (notString tail)
    · rename_i isArray
      rw [(List.cons.inj isArray).1] at notArray
      exact absurd rfl (notArray tail)
    · rename_i isObject
      rw [(List.cons.inj isObject).1] at notObject
      exact absurd rfl (notObject tail)
    · exact isScalar

theorem localScan_scanOnce (limit : ℕ) : LocalScan (scanOnce limit) := by
  induction limit with
  | zero =>
    apply localScan_scanValue
    intro scan isScan
    cases isScan
  | succ limit ih =>
    apply localScan_scanValue
    intro scan isScan
    cases isScan
    exact ⟨ih, (scanOnce_nil limit)⟩

variable {limit : ℕ} {members : List (CodePoints × JsonValue)}

/-- A text whose value is an object begins with a brace. -/
theorem exists_of_scanOnce_object {text : Text}
    (isOk : scanOnce limit text = .ok (.object members, rest)) :
    ∃ below tail, limit = below + 1 ∧ text = '{' :: tail ∧
      scanObject (scanOnce below) tail = .ok (.object members, rest) := by
  have values : ∀ enter, scanValue enter text = .ok (.object members, rest) →
      ∃ scan tail, enter = some scan ∧ text = '{' :: tail ∧
        scanObject scan tail = .ok (.object members, rest) := by
    intro enter isOk
    unfold scanValue at isOk
    split at isOk
    · obtain ⟨string, -, same⟩ := map_eq_ok.mp isOk
      cases same
    · split at isOk
      · cases isOk
      · obtain ⟨items, same⟩ := scanArray_eq_array isOk
        cases same
    · split at isOk
      · cases isOk
      · exact ⟨_, _, rfl, rfl, isOk⟩
    · exact absurd rfl (scanScalar_ne_object isOk members)
  cases limit with
  | zero =>
    obtain ⟨scan, tail, isScan, -⟩ := values _ isOk
    cases isScan
  | succ limit =>
    obtain ⟨scan, tail, isScan, isText, isObject⟩ := values _ isOk
    cases isScan
    exact ⟨limit, tail, rfl, isText, isObject⟩

theorem scanOnce_append {text : Text} (isOk : scanOnce limit text = .ok (.object members, rest))
    (more : Text) : scanOnce limit (text ++ more) = .ok (.object members, rest ++ more) := by
  obtain ⟨below, tail, rfl, rfl, isObject⟩ := exists_of_scanOnce_object isOk
  exact scanObject_append (localScan_scanOnce below) (scanOnce_nil below) isObject more

theorem loads_append {text : Text} (isOk : loads limit text = .ok (.object members)) {more : Text}
    (some : skipSpace more ≠ []) : loads limit (text ++ more) = .error .jsonDecodeError := by
  rw [loads] at isOk
  split at isOk
  · cases isOk
  rename_i noMark
  obtain ⟨⟨value, rest⟩, isValue, isOk⟩ := bind_eq_ok.mp isOk
  dsimp only at isOk
  split at isOk
  · rename_i ended
    cases isOk
    have started : skipSpace text ≠ [] := by
      intro isEmpty
      rw [isEmpty, (scanOnce_nil limit)] at isValue
      cases isValue
    have noMark' : (text ++ more).head? ≠ Option.some '\uFEFF' := by
      cases text with
      | nil => exact absurd rfl started
      | cons char tail => exact noMark
    have blank : ∀ char ∈ rest, isJsonSpace char = true := dropWhile_eq_nil_iff.mp ended
    have behind : skipSpace (rest ++ more) = skipSpace more := dropWhile_append_of_pos blank
    rw [loads, if_neg noMark', skipSpace_append started, scanOnce_append isValue more]
    change (if skipSpace (rest ++ more) = [] then _ else _) = _
    rw [behind, if_neg some]
  · cases isOk

/-- A text of an object has spaces and a brace first, and without the spaces it is a text of
the same object. -/
theorem exists_of_loads_object {text : Text} (isOk : loads limit text = .ok (.object members)) :
    ∃ tail, skipSpace text = '{' :: tail ∧ loads limit ('{' :: tail) = .ok (.object members) := by
  rw [loads] at isOk
  split at isOk
  · cases isOk
  obtain ⟨⟨value, rest⟩, isValue, isOk⟩ := bind_eq_ok.mp isOk
  dsimp only at isOk
  split at isOk
  · rename_i ended
    cases isOk
    obtain ⟨below, tail, -, isText, -⟩ := exists_of_scanOnce_object isValue
    refine ⟨tail, isText, ?_⟩
    have started : skipSpace ('{' :: tail) = '{' :: tail := rfl
    rw [loads, if_neg (by simp), started, ← isText, isValue]
    exact if_pos ended
  · cases isOk

end Geobench.Library
