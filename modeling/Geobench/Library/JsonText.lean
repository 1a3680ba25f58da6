import Geobench.Library.Json
import Geobench.Library.Text
import Mathlib.Tactic.IntervalCases

/-!
# Writing values

`json.dumps`, with or without escapes for the characters beyond ASCII, and `repr` put the same
commas, colons and brackets around the words, the numbers and the strings that they write in their
own ways. `Json.render` writes a value in such a `Style`.

No style makes up a tag: **`infix_of_infix_render`** finds a tag that is in the text of a value in
one of its strings.
-/

namespace Geobench.Library

open List

/-! ## Values -/

/-- What an induction on a value has to show. -/
structure Json.Steps (motive : Json → Prop) : Prop where
  null : motive .null
  bool : ∀ value, motive (.bool value)
  number : ∀ literal, motive (.number literal)
  string : ∀ text, motive (.string text)
  array : ∀ items, (∀ item ∈ items, motive item) → motive (.array items)
  object : ∀ members, (∀ member ∈ members, motive member.2) → motive (.object members)

mutual

theorem Json.Steps.value {motive : Json → Prop} (steps : Json.Steps motive) :
    ∀ value, motive value
  | .null => steps.null
  | .bool value => steps.bool value
  | .number literal => steps.number literal
  | .string text => steps.string text
  | .array items => steps.array items (steps.items items)
  | .object members => steps.object members (steps.members members)

theorem Json.Steps.items {motive : Json → Prop} (steps : Json.Steps motive) :
    ∀ items : List Json, ∀ item ∈ items, motive item
  | [] => nofun
  | item :: items => forall_mem_cons.mpr ⟨steps.value item, steps.items items⟩

theorem Json.Steps.members {motive : Json → Prop} (steps : Json.Steps motive) :
    ∀ members : List (Text × Json), ∀ member ∈ members, motive member.2
  | [] => nofun
  | (_, value) :: members => forall_mem_cons.mpr ⟨steps.value value, steps.members members⟩

end

/-- Induction on a value, with what is in arrays and objects before them. -/
@[elab_as_elim]
theorem Json.induction {motive : Json → Prop} (null : motive .null)
    (bool : ∀ value, motive (.bool value)) (number : ∀ literal, motive (.number literal))
    (string : ∀ text, motive (.string text))
    (array : ∀ items, (∀ item ∈ items, motive item) → motive (.array items))
    (object : ∀ members, (∀ member ∈ members, motive member.2) → motive (.object members))
    (value : Json) : motive value :=
  Json.Steps.value ⟨null, bool, number, string, array, object⟩ value

mutual

/-- The strings of a value, the keys of its objects among them. -/
def Json.strings : Json → List Text
  | .string text => [text]
  | .array items => itemStrings items
  | .object members => memberStrings members
  | _ => []

def itemStrings : List Json → List Text
  | [] => []
  | item :: items => item.strings ++ itemStrings items

def memberStrings : List (Text × Json) → List Text
  | [] => []
  | (key, value) :: members => key :: (value.strings ++ memberStrings members)

end

mutual

/-- The values that a value is made of and that have no others in them, the keys of its objects
among them. -/
def Json.leaves : Json → List Json
  | .array items => itemLeaves items
  | .object members => memberLeaves members
  | leaf => [leaf]

def itemLeaves : List Json → List Json
  | [] => []
  | item :: items => item.leaves ++ itemLeaves items

def memberLeaves : List (Text × Json) → List Json
  | [] => []
  | (key, value) :: members => .string key :: (value.leaves ++ memberLeaves members)

end

theorem itemLeaves_eq_flatMap (items : List Json) : itemLeaves items = items.flatMap Json.leaves := by
  induction items with
  | nil => rfl
  | cons item items ih => rw [itemLeaves, ih, flatMap_cons]

theorem memberLeaves_eq_flatMap (members : List (Text × Json)) :
    memberLeaves members = members.flatMap fun member => .string member.1 :: member.2.leaves := by
  induction members with
  | nil => rfl
  | cons member members ih => rw [memberLeaves, ih, flatMap_cons, cons_append]

theorem mem_itemStrings {text : Text} {items : List Json} :
    text ∈ itemStrings items ↔ ∃ item ∈ items, text ∈ item.strings := by
  induction items with
  | nil => simp [itemStrings]
  | cons item items ih => simp [itemStrings, ih]

theorem mem_memberStrings {text : Text} {members : List (Text × Json)} :
    text ∈ memberStrings members ↔
      ∃ member ∈ members, text = member.1 ∨ text ∈ member.2.strings := by
  induction members with
  | nil => simp [memberStrings]
  | cons member members ih => simp [memberStrings, ih, or_assoc]

/-! ## Styles -/

/-- How the values are written that have no others in them. -/
structure Style where
  null : Text
  bool : Bool → Text
  number : NumberLiteral → Text
  string : Text → Text

mutual

def Json.render (style : Style) : Json → Text
  | .null => style.null
  | .bool value => style.bool value
  | .number literal => style.number literal
  | .string text => style.string text
  | .array items => '[' :: (", ".toList.intercalate (renderItems style items) ++ [']'])
  | .object members => '{' :: (", ".toList.intercalate (renderMembers style members) ++ ['}'])

def renderItems (style : Style) : List Json → List Text
  | [] => []
  | item :: items => item.render style :: renderItems style items

def renderMembers (style : Style) : List (Text × Json) → List Text
  | [] => []
  | (key, value) :: members =>
    (style.string key ++ (": ".toList ++ value.render style)) :: renderMembers style members

end

def renderMember (style : Style) (member : Text × Json) : Text :=
  style.string member.1 ++ (": ".toList ++ member.2.render style)

theorem renderItems_eq_map (style : Style) (items : List Json) :
    renderItems style items = items.map (Json.render style) := by
  induction items with
  | nil => rfl
  | cons item items ih => rw [renderItems, ih, map_cons]

theorem renderMembers_eq_map (style : Style) (members : List (Text × Json)) :
    renderMembers style members = members.map (renderMember style) := by
  induction members with
  | nil => rfl
  | cons member members ih => rw [renderMembers, ih, map_cons, renderMember]

theorem render_array (style : Style) (items : List Json) :
    (Json.array items).render style =
      '[' :: (", ".toList.intercalate (items.map (Json.render style)) ++ [']']) := by
  rw [Json.render, renderItems_eq_map]

theorem render_object (style : Style) (members : List (Text × Json)) :
    (Json.object members).render style =
      '{' :: (", ".toList.intercalate (members.map (renderMember style)) ++ ['}']) := by
  rw [Json.render, renderMembers_eq_map]

/-- A character of a string that `json.dumps` does not have to escape. -/
def writeChar (char : Char) : Text :=
  match shortEscape char with
  | some letter => ['\\', letter]
  | none => if char.toNat < 0x20 then '\\' :: 'u' :: hex4 char.toNat else [char]

def NumberLiteral.text (literal : NumberLiteral) : Text := literal.first :: literal.rest

/-- `json.dumps(value, ensure_ascii=False)` -/
def jsonStyle : Style where
  null := "null".toList
  bool value := if value then "true".toList else "false".toList
  number := NumberLiteral.text
  string text := '"' :: (text.flatMap writeChar ++ ['"'])

/-- Hexadecimal digits with zeros in front. -/
def hexDigits : (width : ℕ) → ℕ → Text
  | 0, _ => []
  | width + 1, code => hexDigits width (code / 16) ++ [hexDigit (code % 16)]

/-- A character of a string between quotes, as `repr` writes it. -/
def reprChar (isPrintable : Char → Bool) (quote char : Char) : Text :=
  if char = quote ∨ char = '\\' then ['\\', char]
  else if char = '\n' then ['\\', 'n']
  else if char = '\r' then ['\\', 'r']
  else if char = '\t' then ['\\', 't']
  else if isPrintable char then [char]
  else if char.toNat < 0x100 then '\\' :: 'x' :: hexDigits 2 char.toNat
  else if char.toNat < 0x10000 then '\\' :: 'u' :: hexDigits 4 char.toNat
  else '\\' :: 'U' :: hexDigits 8 char.toNat

/-- The quotes of a string are single ones, unless it has these and no double ones. -/
def reprString (isPrintable : Char → Bool) (text : Text) : Text :=
  let quote := if '\x27' ∈ text ∧ '"' ∉ text then '"' else '\x27'
  quote :: (text.flatMap (reprChar isPrintable quote) ++ [quote])

/-- The names of numbers that JSON writes with words. -/
def reprNumber (literal : NumberLiteral) : Text :=
  if literal.text = "NaN".toList then "nan".toList
  else if literal.text = "Infinity".toList then "inf".toList
  else if literal.text = "-Infinity".toList then "-inf".toList
  else literal.text

/-- `repr(value)` -/
def reprStyle (isPrintable : Char → Bool) : Style where
  null := "None".toList
  bool value := if value then "True".toList else "False".toList
  number := reprNumber
  string := reprString isPrintable

/-- `json.dumps(value, ensure_ascii=False)` -/
def Json.write (value : Json) : Text := value.render jsonStyle

theorem write_object (members : List (Text × Json)) : (Json.object members).write =
    '{' :: (", ".toList.intercalate (members.map (renderMember jsonStyle)) ++ ['}']) :=
  render_object jsonStyle members

/-! ## Tags in what is written -/

/-- The characters of words, of numbers, and around values. -/
def plainChars : Text := "nulltrefasNoTFiy0123456789+-.eEI[]{}, :".toList

def escapeChars : Text := "\\\"\x27bfnrtuxU0123456789abcdef".toList

/-- A text that no style makes up: it has no quotes and backslashes, it does not begin like the end
of an escape, and one of its characters is not around values. -/
def Marker (tag : Text) : Prop :=
  (∀ char ∈ tag, char ∉ ['"', '\x27', '\\']) ∧ (∀ char ∈ tag.head?, char ∉ escapeChars) ∧
    ∃ char ∈ tag, char ∉ plainChars

instance (tag : Text) : Decidable (Marker tag) := by
  unfold Marker
  infer_instance

/-- How a style writes the characters of a string. -/
structure Escapes (quote : Char) (escape : Char → Text) : Prop where
  isQuote : quote ∈ ['"', '\x27']
  escapes : ∀ char, escape char = [char] ∨ ∃ letters, escape char = '\\' :: letters ∧
    ∀ letter ∈ letters, letter ∈ escapeChars

/-- A style that writes strings between quotes, and nothing else with other characters than those
around values. -/
structure Style.Quotes (style : Style) : Prop where
  null : ∀ char ∈ style.null, char ∈ plainChars
  bool : ∀ value, ∀ char ∈ style.bool value, char ∈ plainChars
  number : ∀ literal, ∀ char ∈ style.number literal, char ∈ plainChars
  string : ∀ text, ∃ quote escape, Escapes quote escape ∧
    style.string text = quote :: (text.flatMap escape ++ [quote])

section Markers

variable {tag : Text}

theorem prefix_of_prefix_flatMap {escape : Char → Text} {quote : Char}
    (escapes : Escapes quote escape) {start text : Text}
    (unquoted : ∀ char ∈ start, char ∉ ['"', '\x27', '\\'])
    (isPrefix : start <+: text.flatMap escape) : start <+: text := by
  induction text generalizing start with
  | nil => exact isPrefix
  | cons char text ih =>
    cases start with
    | nil => exact nil_prefix
    | cons first start =>
      rw [forall_mem_cons] at unquoted
      rw [flatMap_cons] at isPrefix
      rcases escapes.escapes char with plain | ⟨letters, escaped, -⟩
      · rw [plain, singleton_append, cons_prefix_cons] at isPrefix
        rw [cons_prefix_cons]
        exact ⟨isPrefix.1, ih unquoted.2 isPrefix.2⟩
      · rw [escaped, cons_append, cons_prefix_cons] at isPrefix
        exact absurd isPrefix.1 fun same => unquoted.1 (by simp [same])

/-- A tag in the characters of a string is in the string. -/
theorem infix_of_infix_flatMap (marker : Marker tag) {escape : Char → Text} {quote : Char}
    (escapes : Escapes quote escape) {text : Text} (isInfix : tag <:+: text.flatMap escape) :
    tag <:+: text := by
  induction text with
  | nil => exact isInfix
  | cons char text ih =>
    rw [flatMap_cons] at isInfix
    rcases escapes.escapes char with plain | ⟨letters, escaped, isEscape⟩
    · rw [plain, singleton_append, infix_cons_iff] at isInfix
      rw [infix_cons_iff]
      rcases isInfix with isPrefix | isInfix
      · left
        have whole : (char :: text).flatMap escape = char :: text.flatMap escape := by
          rw [flatMap_cons, plain, singleton_append]
        exact prefix_of_prefix_flatMap escapes marker.1 (whole ▸ isPrefix)
      · exact .inr (ih isInfix)
    · refine (ih (infix_of_infix_append ?_ isInfix)).trans (suffix_cons _ _).isInfix
      intro head isHead isIn
      rw [escaped, mem_cons] at isIn
      rcases isIn with rfl | isIn
      · exact marker.1 _ (mem_of_mem_head? isHead) (by simp)
      · exact marker.2.1 head isHead (isEscape head isIn)

/-- A piece of a text where a tag is found, or which the tag does not reach into from before. -/
def Passes (tag : Text) (found : Prop) (piece : Text) : Prop :=
  ∀ before after : Text, (∀ char ∈ before, char ∈ plainChars) →
    tag <:+: before ++ (piece ++ after) →
      found ∨ ∃ before', (∀ char ∈ before', char ∈ plainChars) ∧ tag <:+: before' ++ after

variable {found : Prop} {piece more : Text}

theorem Passes.mono {found' : Prop} (passes : Passes tag found piece) (imp : found → found') :
    Passes tag found' piece :=
  fun before after plain isInfix => (passes before after plain isInfix).imp_left imp

theorem Passes.append (passes : Passes tag found piece) (passesMore : Passes tag found more) :
    Passes tag found (piece ++ more) := by
  intro before after plain isInfix
  rw [append_assoc] at isInfix
  rcases passes before _ plain isInfix with isFound | ⟨before', plain', isInfix'⟩
  · exact .inl isFound
  · exact passesMore before' after plain' isInfix'

theorem passes_of_plain (plain : ∀ char ∈ piece, char ∈ plainChars) : Passes tag found piece := by
  intro before after plainBefore isInfix
  refine .inr ⟨before ++ piece, fun char isChar => ?_, by rwa [append_assoc]⟩
  rcases mem_append.mp isChar with isBefore | isPiece
  · exact plainBefore char isBefore
  · exact plain char isPiece

theorem Passes.intercalate {separator : Text} {pieces : List Text}
    (plain : ∀ char ∈ separator, char ∈ plainChars)
    (passes : ∀ piece ∈ pieces, Passes tag found piece) :
    Passes tag found (separator.intercalate pieces) := by
  induction pieces with
  | nil => exact passes_of_plain nofun
  | cons first pieces ih =>
    rw [forall_mem_cons] at passes
    cases pieces with
    | nil => simpa using passes.1
    | cons second pieces =>
      rw [intercalate_cons_cons]
      exact (passes.1.append (passes_of_plain plain)).append (ih passes.2)

theorem Marker.not_infix_plain (marker : Marker tag) (plain : ∀ char ∈ piece, char ∈ plainChars) :
    ¬ tag <:+: piece := by
  intro isInfix
  obtain ⟨char, isChar, notPlain⟩ := marker.2.2
  exact notPlain (plain char (isInfix.subset isChar))

variable {style : Style}

/-- A tag does not reach over the quotes of a string. -/
theorem Marker.passes_string (marker : Marker tag) (quotes : style.Quotes) (text : Text) :
    Passes tag (tag <:+: text) (style.string text) := by
  intro before after plain isInfix
  obtain ⟨quote, escape, escapes, written⟩ := quotes.string text
  have free : quote ∉ tag := by
    intro isIn
    have isQuote := escapes.isQuote
    simp only [mem_cons, not_mem_nil, or_false] at isQuote
    refine marker.1 quote isIn ?_
    rcases isQuote with rfl | rfl <;> simp
  rw [written, cons_append, infix_append_cons_iff free, append_assoc,
    singleton_append, infix_append_cons_iff free] at isInfix
  rcases isInfix with isInfix | isInfix | isInfix
  · exact absurd isInfix (marker.not_infix_plain plain)
  · exact .inl (infix_of_infix_flatMap marker escapes isInfix)
  · exact .inr ⟨[], fun char isChar => absurd isChar not_mem_nil, isInfix⟩

theorem Passes.bracket {opening closing : Char} (passes : Passes tag found piece)
    (isOpening : opening ∈ plainChars) (isClosing : closing ∈ plainChars) :
    Passes tag found (opening :: (piece ++ [closing])) := by
  have opens : Passes tag found [opening] := passes_of_plain (by simpa using isOpening)
  exact opens.append (passes.append (passes_of_plain (by simpa using isClosing)))

theorem Marker.passes_render (marker : Marker tag) (quotes : style.Quotes) (value : Json) :
    Passes tag (∃ text ∈ value.strings, tag <:+: text) (value.render style) := by
  have comma : ∀ char ∈ ", ".toList, char ∈ plainChars := by decide
  have colon : ∀ char ∈ ": ".toList, char ∈ plainChars := by decide
  induction value using Json.induction with
  | null => exact passes_of_plain quotes.null
  | bool value => exact passes_of_plain (quotes.bool value)
  | number literal => exact passes_of_plain (quotes.number literal)
  | string text =>
    exact (marker.passes_string quotes text).mono fun isInfix =>
      ⟨text, by simp [Json.strings], isInfix⟩
  | array items ih =>
    rw [render_array]
    refine Passes.bracket (Passes.intercalate comma ?_) (by decide) (by decide)
    intro piece isPiece
    obtain ⟨item, isItem, rfl⟩ := mem_map.mp isPiece
    refine (ih item isItem).mono ?_
    rintro ⟨text, isText, isInfix⟩
    exact ⟨text, by rw [Json.strings]; exact mem_itemStrings.mpr ⟨item, isItem, isText⟩, isInfix⟩
  | object members ih =>
    rw [render_object]
    refine Passes.bracket (Passes.intercalate comma ?_) (by decide) (by decide)
    intro piece isPiece
    obtain ⟨member, isMember, rfl⟩ := mem_map.mp isPiece
    have isString : ∀ text, (text = member.1 ∨ text ∈ member.2.strings) →
        text ∈ (Json.object members).strings := by
      intro text isText
      rw [Json.strings]
      exact mem_memberStrings.mpr ⟨member, isMember, isText⟩
    refine Passes.append ?_ ((passes_of_plain colon).append ?_)
    · exact (marker.passes_string quotes member.1).mono fun isInfix =>
        ⟨member.1, isString _ (.inl rfl), isInfix⟩
    · refine (ih member isMember).mono ?_
      rintro ⟨text, isText, isInfix⟩
      exact ⟨text, isString _ (.inr isText), isInfix⟩

/-- A tag in the text of a value is in one of its strings. -/
theorem infix_of_infix_render (marker : Marker tag) (quotes : style.Quotes) {value : Json}
    (isInfix : tag <:+: value.render style) : ∃ text ∈ value.strings, tag <:+: text := by
  have within : tag <:+: [] ++ (value.render style ++ []) := by simpa using isInfix
  rcases marker.passes_render quotes value [] [] nofun within with isFound | ⟨before, plain, isInfix⟩
  · exact isFound
  · rw [append_nil] at isInfix
    exact absurd isInfix (marker.not_infix_plain plain)

end Markers

/-! ## The styles -/

variable {char : Char}

theorem plain_of_isDigit (isDigit : char.isDigit = true) : char ∈ plainChars := by
  obtain ⟨low, high⟩ : 48 ≤ char.toNat ∧ char.toNat ≤ 57 := by
    simpa [Char.isDigit, UInt32.le_iff_toNat_le] using isDigit
  rw [← Char.ofNat_toNat char]
  interval_cases char.toNat <;> decide

theorem plain_of_isNumberChar (isNumber : isNumberChar char = true) : char ∈ plainChars := by
  rw [isNumberChar, Bool.or_eq_true, contains_iff_mem] at isNumber
  rcases isNumber with isDigit | isLetter
  · exact plain_of_isDigit isDigit
  · have letters : ∀ char ∈ "+-.eENaInfity".toList, char ∈ plainChars := by decide
    exact letters char isLetter

theorem plain_of_isNumberStart (isNumber : isNumberStart char = true) : char ∈ plainChars := by
  rw [isNumberStart, Bool.or_eq_true, contains_iff_mem] at isNumber
  rcases isNumber with isDigit | isLetter
  · exact plain_of_isDigit isDigit
  · have letters : ∀ char ∈ "-NI".toList, char ∈ plainChars := by decide
    exact letters char isLetter

theorem NumberLiteral.plain (literal : NumberLiteral) :
    ∀ char ∈ literal.text, char ∈ plainChars :=
  forall_mem_cons.mpr ⟨plain_of_isNumberStart literal.starts,
    fun char isChar => plain_of_isNumberChar (literal.chars char isChar)⟩

theorem hexDigit_mem (digit : ℕ) : hexDigit digit ∈ escapeChars := by
  have digits : ∀ digit < 16, hexDigit digit ∈ escapeChars := by decide
  by_cases small : digit < 16
  · exact digits digit small
  · have long : "0123456789abcdef".toList.length ≤ digit := Nat.le_of_not_lt small
    rw [hexDigit, getD_eq_getElem?_getD, getElem?_eq_none long]
    decide

theorem hex4_mem (code : ℕ) : ∀ letter ∈ hex4 code, letter ∈ escapeChars := by
  simp only [hex4, forall_mem_cons, hexDigit_mem, true_and]
  exact forall_mem_nil _

theorem hexDigits_mem (width code : ℕ) :
    ∀ letter ∈ hexDigits width code, letter ∈ escapeChars := by
  induction width generalizing code with
  | zero => exact nofun
  | succ width ih =>
    intro letter isLetter
    rw [hexDigits, mem_append, mem_singleton] at isLetter
    rcases isLetter with isLetter | rfl
    · exact ih _ letter isLetter
    · exact hexDigit_mem _

theorem shortEscape_mem {letter : Char} (short : shortEscape char = some letter) :
    letter ∈ escapeChars := by
  have member := shortEscape_eq_some short
  have letters : ∀ pair ∈ [('"', '"'), ('\\', '\\'), ('\n', 'n'), ('\r', 'r'), ('\t', 't'),
      ('\x0c', 'f'), ('\x08', 'b')], pair.2 ∈ escapeChars := by
    decide
  exact letters _ member

theorem escapes_writeChar : Escapes '"' writeChar where
  isQuote := by decide
  escapes char := by
    unfold writeChar
    cases short : shortEscape char with
    | some letter => exact .inr ⟨[letter], rfl, by simpa using shortEscape_mem short⟩
    | none =>
      dsimp only
      split
      · exact .inr ⟨_, rfl, forall_mem_cons.mpr ⟨by decide, hex4_mem _⟩⟩
      · exact .inl rfl

variable (isPrintable : Char → Bool)

theorem escapes_reprChar {quote : Char} (isQuote : quote ∈ ['"', '\x27']) :
    Escapes quote (reprChar isPrintable quote) where
  isQuote := isQuote
  escapes char := by
    have quotes : ∀ quote ∈ ['"', '\x27'], quote ∈ escapeChars := by decide
    unfold reprChar
    split
    · rename_i escaped
      refine .inr ⟨[char], rfl, ?_⟩
      rw [forall_mem_singleton]
      rcases escaped with rfl | rfl
      · exact quotes _ isQuote
      · decide
    split
    · exact .inr ⟨['n'], rfl, by decide⟩
    split
    · exact .inr ⟨['r'], rfl, by decide⟩
    split
    · exact .inr ⟨['t'], rfl, by decide⟩
    split
    · exact .inl rfl
    split
    · exact .inr ⟨_, rfl, forall_mem_cons.mpr ⟨by decide, hexDigits_mem _ _⟩⟩
    split
    · exact .inr ⟨_, rfl, forall_mem_cons.mpr ⟨by decide, hexDigits_mem _ _⟩⟩
    · exact .inr ⟨_, rfl, forall_mem_cons.mpr ⟨by decide, hexDigits_mem _ _⟩⟩

theorem quotes_jsonStyle : jsonStyle.Quotes where
  null := by decide
  bool value := by cases value <;> decide
  number := NumberLiteral.plain
  string text := ⟨'"', writeChar, escapes_writeChar, rfl⟩

theorem quotes_reprStyle : (reprStyle isPrintable).Quotes where
  null := by
    have plain : ∀ char ∈ "None".toList, char ∈ plainChars := by decide
    exact plain
  bool value := by
    have plain : ∀ value : Bool, ∀ char ∈ if value then "True".toList else "False".toList,
        char ∈ plainChars := by
      decide
    exact plain value
  number literal := by
    have names : ∀ name ∈ ["nan".toList, "inf".toList, "-inf".toList],
        ∀ char ∈ name, char ∈ plainChars := by
      decide
    change ∀ char ∈ reprNumber literal, char ∈ plainChars
    unfold reprNumber
    split
    · exact names _ (by simp)
    split
    · exact names _ (by simp)
    split
    · exact names _ (by simp)
    · exact literal.plain
  string text := by
    refine ⟨_, _, escapes_reprChar isPrintable ?_, rfl⟩
    split <;> decide

/-! ## The characters of what is written -/

theorem forall_mem_intercalate {p : Char → Prop} {separator : Text} {pieces : List Text}
    (isSeparator : ∀ char ∈ separator, p char) (isPiece : ∀ piece ∈ pieces, ∀ char ∈ piece, p char) :
    ∀ char ∈ separator.intercalate pieces, p char := by
  induction pieces with
  | nil => exact nofun
  | cons first pieces ih =>
    rw [forall_mem_cons] at isPiece
    cases pieces with
    | nil => simpa using isPiece.1
    | cons second pieces =>
      rw [intercalate_cons_cons, forall_mem_append, forall_mem_append]
      exact ⟨⟨isPiece.1, isSeparator⟩, ih isPiece.2⟩

/-- The characters of a text are those around values and those of its strings. -/
theorem forall_mem_render {p : Char → Prop} (plain : ∀ char ∈ plainChars, p char) {style : Style}
    (quotes : style.Quotes) (string : ∀ text, ∀ char ∈ style.string text, p char) (value : Json) :
    ∀ char ∈ value.render style, p char := by
  have comma : ∀ char ∈ ", ".toList, p char := fun char isChar =>
    plain char ((by decide : ∀ char ∈ ", ".toList, char ∈ plainChars) char isChar)
  have colon : ∀ char ∈ ": ".toList, p char := fun char isChar =>
    plain char ((by decide : ∀ char ∈ ": ".toList, char ∈ plainChars) char isChar)
  have bracket {opening closing : Char} {inner : Text} (isOpening : opening ∈ plainChars)
      (isClosing : closing ∈ plainChars) (isInner : ∀ char ∈ inner, p char) :
      ∀ char ∈ opening :: (inner ++ [closing]), p char := by
    rw [forall_mem_cons, forall_mem_append, forall_mem_singleton]
    exact ⟨plain opening isOpening, isInner, plain closing isClosing⟩
  induction value using Json.induction with
  | null => exact fun char isChar => plain char (quotes.null char isChar)
  | bool value => exact fun char isChar => plain char (quotes.bool value char isChar)
  | number literal => exact fun char isChar => plain char (quotes.number literal char isChar)
  | string text => exact string text
  | array items ih =>
    rw [render_array]
    refine bracket (by decide) (by decide) (forall_mem_intercalate comma ?_)
    intro piece isPiece
    obtain ⟨item, isItem, rfl⟩ := mem_map.mp isPiece
    exact ih item isItem
  | object members ih =>
    rw [render_object]
    refine bracket (by decide) (by decide) (forall_mem_intercalate comma ?_)
    intro piece isPiece
    obtain ⟨member, isMember, rfl⟩ := mem_map.mp isPiece
    rw [renderMember, forall_mem_append, forall_mem_append]
    exact ⟨string member.1, colon, ih member isMember⟩

/-- The text of a value has no control characters. -/
theorem printable_write (value : Json) : ∀ char ∈ value.write, 0x20 ≤ char.toNat := by
  have escapes : ∀ char ∈ escapeChars, 0x20 ≤ char.toNat := by decide
  refine forall_mem_render (by decide) quotes_jsonStyle (fun text => ?_) value
  change ∀ char ∈ '"' :: (text.flatMap writeChar ++ ['"']), 0x20 ≤ char.toNat
  rw [forall_mem_cons, forall_mem_append, forall_mem_singleton]
  refine ⟨by decide, fun letter isLetter => ?_, by decide⟩
  obtain ⟨char, -, isLetter⟩ := mem_flatMap.mp isLetter
  unfold writeChar at isLetter
  split at isLetter
  · rename_i short
    rcases mem_cons.mp isLetter with rfl | isLetter
    · decide
    · rw [mem_singleton.mp isLetter]
      exact escapes _ (shortEscape_mem short)
  · split at isLetter
    · rcases mem_cons.mp isLetter with rfl | isLetter
      · decide
      · rcases mem_cons.mp isLetter with rfl | isLetter
        · decide
        · exact escapes _ (hex4_mem _ _ isLetter)
    · rename_i printable
      rw [mem_singleton.mp isLetter]
      exact Nat.le_of_not_lt printable

/-- `repr` writes no newlines. -/
theorem newline_not_mem_repr (value : Json) : '\n' ∉ value.render (reprStyle isPrintable) := by
  have letters : ∀ char ∈ escapeChars, char ≠ '\n' := by decide
  have string (text : Text) : ∀ char ∈ reprString isPrintable text, char ≠ '\n' := by
    unfold reprString
    have isQuote : (if '\x27' ∈ text ∧ '"' ∉ text then '"' else '\x27') ∈ ['"', '\x27'] := by
      split <;> decide
    generalize (if '\x27' ∈ text ∧ '"' ∉ text then '"' else '\x27') = quote at isQuote
    have notQuote : quote ≠ '\n' := by
      rintro rfl
      exact absurd isQuote (by decide)
    dsimp only
    rw [forall_mem_cons, forall_mem_append, forall_mem_singleton]
    refine ⟨notQuote, fun letter isLetter => ?_, notQuote⟩
    obtain ⟨char, -, isLetter⟩ := mem_flatMap.mp isLetter
    rcases (escapes_reprChar isPrintable isQuote).escapes char with plain | ⟨others, escaped, isEscape⟩
    · rw [plain, mem_singleton] at isLetter
      rintro rfl
      rw [← isLetter, reprChar, if_neg (by simp [notQuote.symm]), if_pos rfl] at plain
      exact absurd plain (by decide)
    · rw [escaped, mem_cons] at isLetter
      rcases isLetter with rfl | isLetter
      · decide
      · exact letters letter (isEscape letter isLetter)
  exact fun isIn => forall_mem_render (p := (· ≠ '\n')) (by decide) (quotes_reprStyle isPrintable)
    string value _ isIn rfl

/-! ## The strings in what is written -/

theorem infix_intercalate_of_mem (separator : Text) {piece : Text} {pieces : List Text}
    (isPiece : piece ∈ pieces) : piece <:+: separator.intercalate pieces := by
  induction pieces with
  | nil => cases isPiece
  | cons first pieces ih =>
    cases pieces with
    | nil => simp_all
    | cons second pieces =>
      rw [intercalate_cons_cons]
      rcases mem_cons.mp isPiece with rfl | isLater
      · exact ⟨[], separator ++ separator.intercalate (second :: pieces), by simp⟩
      · exact (ih isLater).trans (suffix_append _ _).isInfix

/-- A string of a value is one of the values that it is made of, and its text is in that of the
value. -/
theorem leaf_and_infix_of_mem_strings {text : Text} (style : Style) {value : Json}
    (isString : text ∈ value.strings) :
    Json.string text ∈ value.leaves ∧ style.string text <:+: value.render style := by
  have bracket {opening closing : Char} {piece : Text} {pieces : List Text} (isPiece : piece ∈ pieces)
      (isInfix : style.string text <:+: piece) :
      style.string text <:+: opening :: (", ".toList.intercalate pieces ++ [closing]) :=
    (isInfix.trans (infix_intercalate_of_mem _ isPiece)).trans ⟨[opening], [closing], rfl⟩
  induction value using Json.induction with
  | null => exact absurd isString not_mem_nil
  | bool value => exact absurd isString not_mem_nil
  | number literal => exact absurd isString not_mem_nil
  | string other =>
    rw [Json.strings, mem_singleton] at isString
    rw [isString]
    exact ⟨mem_singleton_self _, infix_rfl⟩
  | array items ih =>
    rw [Json.strings] at isString
    obtain ⟨item, isItem, isString⟩ := mem_itemStrings.mp isString
    obtain ⟨isLeaf, isInfix⟩ := ih item isItem isString
    rw [Json.leaves, itemLeaves_eq_flatMap, render_array]
    exact ⟨mem_flatMap_of_mem isItem isLeaf, bracket (mem_map_of_mem isItem) isInfix⟩
  | object members ih =>
    rw [Json.strings] at isString
    obtain ⟨member, isMember, isString⟩ := mem_memberStrings.mp isString
    have isPiece : renderMember style member ∈ members.map (renderMember style) :=
      mem_map_of_mem isMember
    rw [Json.leaves, memberLeaves_eq_flatMap, render_object]
    rcases isString with rfl | isString
    · exact ⟨mem_flatMap_of_mem isMember mem_cons_self,
        bracket isPiece (prefix_append _ _).isInfix⟩
    · obtain ⟨isLeaf, isInfix⟩ := ih member isMember isString
      refine ⟨mem_flatMap_of_mem isMember (mem_cons_of_mem _ isLeaf), bracket isPiece ?_⟩
      exact isInfix.trans ⟨style.string member.1 ++ ": ".toList, [], by simp [renderMember]⟩

end Geobench.Library
