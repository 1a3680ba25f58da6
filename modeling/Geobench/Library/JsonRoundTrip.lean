import Geobench.Library.JsonPrefix
import Geobench.Library.JsonText
import Mathlib.Data.List.Nodup

/-!
# Reading what is written

`Json.value` is what the interpreter holds for a value. A value is valid where its numbers are
numbers of JSON and no two members of an object have one key.

**`loads_write`**: the text of a valid value is read as the value.
-/

namespace Geobench.Library

open List

/-! ## Values -/

mutual

/-- A value with its strings as their code points. -/
def Json.value : Json → JsonValue
  | .null => .null
  | .bool value => .bool value
  | .number literal => .number literal.text
  | .string text => .string (codes text)
  | .array items => .array (itemValues items)
  | .object members => .object (memberValues members)

def itemValues : List Json → List JsonValue
  | [] => []
  | item :: items => item.value :: itemValues items

def memberValues : List (Text × Json) → List (CodePoints × JsonValue)
  | [] => []
  | (key, value) :: members => (codes key, value.value) :: memberValues members

end

def memberValue (member : Text × Json) : CodePoints × JsonValue :=
  (codes member.1, member.2.value)

theorem itemValues_eq_map (items : List Json) : itemValues items = items.map Json.value := by
  induction items with
  | nil => rfl
  | cons item items ih => rw [itemValues, ih, map_cons]

theorem memberValues_eq_map (members : List (Text × Json)) :
    memberValues members = members.map memberValue := by
  induction members with
  | nil => rfl
  | cons member members ih => rw [memberValues, ih, map_cons, memberValue]

/-- A number that is read to its end, whatever follows it in a text of JSON. -/
def IsNumber (literal : NumberLiteral) : Prop :=
  ∀ follower ∈ ["".toList, ",".toList, "]".toList, "\x7d".toList],
    scanScalar (literal.text ++ follower) = .ok (.number literal.text, follower)

/-- A value with numbers of a kind and with different keys in its objects. -/
inductive Json.Valid (isNumber : NumberLiteral → Prop) : Json → Prop where
  | null : Valid isNumber .null
  | bool (value : Bool) : Valid isNumber (.bool value)
  | number (literal : NumberLiteral) : isNumber literal → Valid isNumber (.number literal)
  | string (text : Text) : Valid isNumber (.string text)
  | array (items : List Json) : (∀ item ∈ items, Valid isNumber item) →
      Valid isNumber (.array items)
  | object (members : List (Text × Json)) : (members.map Prod.fst).Nodup →
      (∀ member ∈ members, Valid isNumber member.2) → Valid isNumber (.object members)

theorem Json.Valid.mono {isNumber other : NumberLiteral → Prop} {value : Json}
    (valid : value.Valid isNumber) (imp : ∀ literal, isNumber literal → other literal) :
    value.Valid other := by
  induction valid with
  | null => exact .null
  | bool value => exact .bool value
  | number literal isNumber => exact .number literal (imp literal isNumber)
  | string text => exact .string text
  | array items _ ih => exact .array items ih
  | object members different _ ih => exact .object members different ih

/-! ## Strings -/

theorem hexCode_hex4 : ∀ code < 0x20, hexCode (hexDigit (code / 4096))
    (hexDigit (code / 256 % 16)) (hexDigit (code / 16 % 16)) (hexDigit (code % 16)) =
      some code := by
  decide

variable {char : Char}

theorem scanBody_plain (notQuote : char ≠ '"') (notEscape : char ≠ '\\') (rest : Text) :
    scanBody (char :: rest) =
      if char.toNat < 0x20 then .error .jsonDecodeError
      else (scanBody rest).map fun scanned => (char.toNat :: scanned.1, scanned.2) := by
  conv_lhs => unfold scanBody
  split
  · rename_i same
    cases same
  · rename_i same
    exact absurd (List.cons.inj same).1 notQuote
  · rename_i same
    exact absurd (List.cons.inj same).1 notEscape
  · rename_i same
    exact absurd (List.cons.inj same).1 notEscape
  · rename_i same
    cases same
    rfl

/-- A character is read as its code point. -/
theorem scanBody_writeChar (char : Char) (rest : Text) :
    scanBody (writeChar char ++ rest) =
      (scanBody rest).map fun scanned => (char.toNat :: scanned.1, scanned.2) := by
  unfold writeChar
  cases short : shortEscape char with
  | some letter =>
    have member := shortEscape_eq_some short
    simp only [mem_cons, Prod.mk.injEq, not_mem_nil, or_false] at member
    rcases member with ⟨rfl, rfl⟩ | ⟨rfl, rfl⟩ | ⟨rfl, rfl⟩ | ⟨rfl, rfl⟩ | ⟨rfl, rfl⟩ |
      ⟨rfl, rfl⟩ | ⟨rfl, rfl⟩ <;> rfl
  | none =>
    dsimp only
    split
    · rename_i control
      simp only [hex4, cons_append, nil_append]
      rw [scanBody, hexCode_hex4 _ control]
    · rename_i printable
      rw [singleton_append]
      have notQuote : char ≠ '"' := by
        rintro rfl
        cases short
      have notEscape : char ≠ '\\' := by
        rintro rfl
        cases short
      rw [scanBody_plain notQuote notEscape, if_neg printable]

theorem scanBody_write (text rest : Text) :
    scanBody (text.flatMap writeChar ++ '"' :: rest) = .ok (codes text, rest) := by
  induction text with
  | nil => rfl
  | cons char text ih =>
    rw [flatMap_cons, append_assoc, scanBody_writeChar, ih]
    rfl

theorem joinSurrogates_codes (text : Text) : joinSurrogates (codes text) = codes text := by
  induction text with
  | nil => rfl
  | cons char text ih =>
    cases text with
    | nil => rfl
    | cons next text =>
      have notHigh : ¬ ((0xd800 ≤ char.toNat ∧ char.toNat ≤ 0xdbff) ∧
          (0xdc00 ≤ next.toNat ∧ next.toNat ≤ 0xdfff)) := by
        have halves := not_surrogate char
        omega
      change joinSurrogates (char.toNat :: next.toNat :: codes text) = _
      rw [joinSurrogates, if_neg notHigh]
      exact congrArg (char.toNat :: ·) ih

theorem scanString_write (text rest : Text) :
    scanString (text.flatMap writeChar ++ '"' :: rest) = .ok (codes text, rest) := by
  rw [scanString, scanBody_write]
  change Except.ok (joinSurrogates (codes text), rest) = _
  rw [joinSurrogates_codes]

/-! ## Arrays and objects -/

/-- What can follow a value in a text of JSON. -/
def Follows (rest : Text) : Prop :=
  rest = [] ∨ ∃ char more, rest = char :: more ∧ char ∈ [',', ']', '}']

theorem follows_cons (rest : Text) (isIn : char ∈ [',', ']', '}']) : Follows (char :: rest) :=
  .inr ⟨char, rest, rfl, isIn⟩

variable {text : Text}

theorem codes_injective {other : Text} (same : codes text = codes other) : text = other :=
  map_injective_iff.mpr (fun _ _ => Char.toNat_inj.mp) same

/-- Joined texts that are not empty are as many as they have characters at most. -/
theorem length_le_length_intercalate (separator : Text) {pieces : List Text}
    (some : ∀ piece ∈ pieces, piece ≠ []) : pieces.length ≤ (separator.intercalate pieces).length := by
  induction pieces with
  | nil => exact Nat.zero_le _
  | cons first pieces ih =>
    rw [forall_mem_cons] at some
    have positive := length_pos_iff.mpr some.1
    cases pieces with
    | nil => simpa using Nat.succ_le_of_lt positive
    | cons second pieces =>
      have later := ih some.2
      rw [intercalate_cons_cons, length_append, length_append, length_cons]
      omega

/-- A text whose first character is no space, no closing bracket and no byte order mark. -/
def Begins (text : Text) : Prop :=
  ∃ char more, text = char :: more ∧ isJsonSpace char = false ∧ char ∉ [']', '}', '\uFEFF']

theorem skipSpace_of_begins (begins : Begins text) : skipSpace text = text := by
  obtain ⟨char, more, written, notSpace, -⟩ := begins
  rw [written, skipSpace, dropWhile_cons_of_neg (by simp [notSpace])]

theorem Begins.append (begins : Begins text) (rest : Text) : Begins (text ++ rest) := by
  obtain ⟨char, more, rfl, begins⟩ := begins
  exact ⟨char, more ++ rest, rfl, begins⟩

def scannedIf {α : Type} (isRead : Bool) (scanned : α) : Except LoadsError α :=
  if isRead = true then .ok scanned else .error .jsonDecodeError

/-- A text that a scan reads as a value, if it can be read. -/
def ReadsText {α : Type} (scan : Text → Except LoadsError (α × Text)) (text : Text)
    (isRead : Bool) (value : α) : Prop :=
  ∀ rest, Follows rest → scan (text ++ rest) = scannedIf isRead (value, rest)

theorem Begins.intercalate {first : Text} (begins : Begins first) (separator : Text)
    (later : List Text) : Begins (separator.intercalate (first :: later)) := by
  obtain ⟨more, joined⟩ := exists_intercalate_cons separator first later
  rw [joined]
  exact begins.append more

variable {closing : Char}

theorem skipSpace_closing (isClosing : closing ∈ [']', '}']) (rest : Text) :
    skipSpace (closing :: rest) = closing :: rest := by
  simp only [mem_cons, not_mem_nil, or_false] at isClosing
  rcases isClosing with rfl | rfl <;> rfl

/-- Elements are read one after the other. -/
theorem scanElements_render {ι α : Type} {element : Text → Except LoadsError (α × Text)}
    (isClosing : closing ∈ [']', '}']) {render : ι → Text} {isRead : ι → Bool} {value : ι → α}
    {items : List ι} (some : items ≠ []) (begins : ∀ item ∈ items, Begins (render item))
    (reads : ∀ item ∈ items, ReadsText element (render item) (isRead item) (value item)) {fuel : ℕ}
    (enough : items.length ≤ fuel) (rest : Text) :
    scanElements element closing fuel
        (", ".toList.intercalate (items.map render) ++ closing :: rest) =
      scannedIf (items.all isRead) (items.map value, rest) := by
  induction items generalizing fuel with
  | nil => exact absurd rfl some
  | cons item items ih =>
    rw [forall_mem_cons] at begins reads
    cases fuel with
    | zero => exact absurd enough (Nat.not_succ_le_zero _)
    | succ fuel =>
      rw [all_cons]
      cases items with
      | nil =>
        rw [map_singleton, intercalate_singleton, scanElements,
          reads.1 _ (follows_cons rest (mem_cons_of_mem _ isClosing))]
        cases isRead item with
        | false => rfl
        | true =>
          simp only [scannedIf, if_true, bind, Except.bind, skipSpace_closing isClosing]
          rfl
      | cons second items =>
        have later := ih (cons_ne_nil _ _) begins.2 reads.2 (Nat.le_of_succ_le_succ enough)
        have notComma : ',' ≠ closing := by
          rintro rfl
          exact absurd isClosing (by decide)
        have split : ", ".toList.intercalate ((item :: second :: items).map render) ++
            closing :: rest = render item ++ ',' :: ' ' :: (", ".toList.intercalate
              ((second :: items).map render) ++ closing :: rest) := by
          rw [map_cons, map_cons, intercalate_cons_cons]
          simp
        have next := skipSpace_of_begins (((begins.2 second mem_cons_self).intercalate
          ", ".toList (items.map render)).append (closing :: rest))
        rw [split, scanElements, reads.1 _ (follows_cons _ (by decide))]
        cases isRead item with
        | false => rfl
        | true =>
          change (if ',' = closing then _ else if ',' = ',' then
            (scanElements element closing fuel (skipSpace (", ".toList.intercalate
              ((second :: items).map render) ++ closing :: rest))).map _ else _) = _
          rw [if_neg notComma, if_pos rfl, map_cons, next, ← map_cons, later, Bool.true_and]
          cases (second :: items).all isRead <;> rfl

theorem scanBracketed_render {ι α β : Type} {element : Text → Except LoadsError (α × Text)}
    (isClosing : closing ∈ [']', '}']) {render : ι → Text} {isRead : ι → Bool} {value : ι → α}
    {items : List ι} (begins : ∀ item ∈ items, Begins (render item))
    (reads : ∀ item ∈ items, ReadsText element (render item) (isRead item) (value item))
    (make : List α → β) (rest : Text) :
    scanBracketed element closing make
        (", ".toList.intercalate (items.map render) ++ closing :: rest) =
      scannedIf (items.all isRead) (make (items.map value), rest) := by
  cases items with
  | nil =>
    rw [scanBracketed, map_nil, intercalate_nil, nil_append, skipSpace_closing isClosing]
    exact if_pos rfl
  | cons item items =>
    have some : ∀ piece ∈ (item :: items).map render, piece ≠ [] := by
      intro piece isPiece
      obtain ⟨other, isOther, rfl⟩ := mem_map.mp isPiece
      obtain ⟨char, more, written, -⟩ := begins other isOther
      rw [written]
      exact cons_ne_nil _ _
    have enough := length_le_length_intercalate ", ".toList some
    rw [length_map] at enough
    have isItems := scanElements_render isClosing (cons_ne_nil _ _) begins reads
      (enough.trans (length_append ▸ Nat.le_add_right _ (closing :: rest).length)) rest
    have starts := ((begins item mem_cons_self).intercalate ", ".toList
      (items.map render)).append (closing :: rest)
    rw [scanBracketed, map_cons, skipSpace_of_begins starts, ← map_cons]
    rw [← map_cons] at starts
    obtain ⟨char, more, written, -, notClosing⟩ := starts
    have opens : char ≠ closing := by
      rintro rfl
      exact notClosing (mem_append_left ['\uFEFF'] isClosing)
    rw [written] at isItems ⊢
    dsimp only
    rw [if_neg opens, isItems]
    cases (item :: items).all isRead <;> rfl

/-! ## Styles that are read -/

/-- Which of the values without others in them are read in a style. The texts of the others are no
JSON. -/
structure Style.Reads (style : Style) (isRead : Json → Bool) : Prop where
  begins : ∀ value : Json, Begins (value.render style)
  null : ∀ enter, ReadsText (scanValue enter) style.null (isRead .null) .null
  bool : ∀ enter value,
    ReadsText (scanValue enter) (style.bool value) (isRead (.bool value)) (.bool value)
  number : ∀ enter literal, IsNumber literal →
    ReadsText (scanValue enter) (style.number literal) (isRead (.number literal))
      (.number literal.text)
  string : ∀ text rest,
    (∃ more, style.string text ++ rest = '"' :: more ∧
      scanString more = scannedIf (isRead (.string text)) (codes text, rest)) ∨
    (isRead (.string text) = false ∧ ∃ more, style.string text ++ rest = '\x27' :: more)

/-- An object with different keys keeps its members. -/
theorem dictOf_eq_self {members : List (CodePoints × JsonValue)}
    (different : (members.map Prod.fst).Nodup) : dictOf members = members := by
  have collected : ∀ earlier : List (CodePoints × JsonValue),
      ((earlier ++ members).map Prod.fst).Nodup →
        members.foldl (fun members pair => setMember members pair.1 pair.2) earlier =
          earlier ++ members := by
    clear different
    induction members with
    | nil => exact fun earlier _ => (append_nil earlier).symm
    | cons member members ih =>
      intro earlier different
      have new : member.1 ∉ earlier.map Prod.fst := by
        intro isOld
        rw [map_append, nodup_append] at different
        exact different.2.2 _ isOld _ mem_cons_self rfl
      rw [foldl_cons, setMember, if_neg new, ih _ (by simpa using different)]
      simp
  exact collected [] (by simpa using different)

theorem scanValue_scalar (enter : Option (Text → Except LoadsError (JsonValue × Text)))
    (rest : Text) (notOpening : char ∉ ['"', '[', '{']) :
    scanValue enter (char :: rest) = scanScalar (char :: rest) := by
  unfold scanValue
  split
  · rename_i same
    exact absurd (List.cons.inj same).1 (fun isQuote => notOpening (by simp [isQuote]))
  · rename_i same
    exact absurd (List.cons.inj same).1 (fun isBracket => notOpening (by simp [isBracket]))
  · rename_i same
    exact absurd (List.cons.inj same).1 (fun isBrace => notOpening (by simp [isBrace]))
  · rfl

theorem exists_scanOnce (limit : ℕ) : ∃ enter, scanOnce limit = scanValue enter := by
  cases limit with
  | zero => exact ⟨_, rfl⟩
  | succ limit => exact ⟨_, rfl⟩

theorem readsText_leaf {style : Style} {isRead : Json → Bool} {leaf : Json}
    (isLeaf : leaf.leaves = [leaf]) (limit : ℕ)
    (reads : ∀ enter, ReadsText (scanValue enter) (leaf.render style) (isRead leaf) leaf.value) :
    ReadsText (scanOnce limit) (leaf.render style) (leaf.leaves.all isRead) leaf.value := by
  obtain ⟨enter, isScan⟩ := exists_scanOnce limit
  rw [isLeaf, isScan, all_cons, all_nil, Bool.and_true]
  exact reads enter

section Styles

variable {style : Style} {isRead : Json → Bool} (reads : style.Reads isRead)
  {scan : Text → Except LoadsError (JsonValue × Text)}
include reads

theorem Style.Reads.begins_member (member : Text × Json) : Begins (renderMember style member) := by
  have begins := reads.begins (.string member.1)
  rw [Json.render] at begins
  rw [renderMember]
  exact begins.append _

theorem Style.Reads.scanMember_render {member : Text × Json}
    (readsValue : ReadsText scan (member.2.render style) (member.2.leaves.all isRead)
      member.2.value) :
    ReadsText (scanMember scan) (renderMember style member)
      (isRead (.string member.1) && member.2.leaves.all isRead) (memberValue member) := by
  intro rest follows
  have split : renderMember style member ++ rest =
      style.string member.1 ++ ':' :: ' ' :: (member.2.render style ++ rest) := by
    rw [renderMember]
    simp
  have next := skipSpace_of_begins ((reads.begins member.2).append rest)
  rw [split]
  rcases reads.string member.1 (':' :: ' ' :: (member.2.render style ++ rest)) with
    ⟨more, isQuoted, scanned⟩ | ⟨unread, more, isQuoted⟩
  · rw [isQuoted, scanMember, scanned]
    cases isRead (.string member.1) with
    | false => rfl
    | true =>
      change (scan (skipSpace (member.2.render style ++ rest))).map _ = _
      rw [next, readsValue rest follows, Bool.true_and]
      cases member.2.leaves.all isRead <;> rfl
  · rw [isQuoted, unread]
    rfl

/-- The text of a valid value is read as the value, whatever follows it, if all that it is made
of is read. -/
theorem Style.Reads.readsText_render {value : Json} (valid : value.Valid IsNumber) {limit : ℕ}
    (enough : (value.render style).length ≤ limit) :
    ReadsText (scanOnce limit) (value.render style) (value.leaves.all isRead) value.value := by
  induction valid generalizing limit with
  | null => exact readsText_leaf rfl limit reads.null
  | bool value => exact readsText_leaf rfl limit fun enter => reads.bool enter value
  | number literal isNumber =>
    exact readsText_leaf rfl limit fun enter => reads.number enter literal isNumber
  | string text =>
    refine readsText_leaf rfl limit fun enter rest _ => ?_
    rw [Json.render]
    rcases reads.string text rest with ⟨more, isQuoted, scanned⟩ | ⟨unread, more, isQuoted⟩
    · rw [isQuoted, scanValue, scanned]
      cases isRead (.string text) <;> rfl
    · rw [isQuoted, unread]
      rfl
  | array items _ ih =>
    intro rest _
    have split : (Json.array items).render style ++ rest =
        '[' :: (", ".toList.intercalate (items.map (Json.render style)) ++ ']' :: rest) := by
      rw [render_array]
      simp
    cases limit with
    | zero =>
      rw [render_array] at enough
      exact absurd enough (Nat.not_succ_le_zero _)
    | succ limit =>
      rw [split, Json.leaves, itemLeaves_eq_flatMap, all_flatMap, Json.value, itemValues_eq_map]
      change scanArray (scanOnce limit) _ = _
      rw [scanArray_eq]
      refine scanBracketed_render (by decide) (fun item _ => reads.begins item)
        (fun item isItem => ih item isItem ?_) JsonValue.array rest
      have long := (infix_intercalate_of_mem ", ".toList
        (mem_map_of_mem (f := Json.render style) isItem)).length_le
      have whole := congrArg length split
      simp only [length_append, length_cons] at whole
      omega
  | object members different _ ih =>
    intro rest _
    have split : (Json.object members).render style ++ rest =
        '{' :: (", ".toList.intercalate (members.map (renderMember style)) ++ '}' :: rest) := by
      rw [render_object]
      simp
    cases limit with
    | zero =>
      rw [render_object] at enough
      exact absurd enough (Nat.not_succ_le_zero _)
    | succ limit =>
      have keys : (members.map memberValue).map Prod.fst = (members.map Prod.fst).map codes := by
        rw [map_map, map_map]
        rfl
      have kept := dictOf_eq_self (keys ▸ List.Nodup.map (fun _ _ => codes_injective) different)
      rw [split, Json.leaves, memberLeaves_eq_flatMap, all_flatMap, Json.value, memberValues_eq_map]
      change scanObject (scanOnce limit) _ = _
      rw [scanObject_eq]
      conv_rhs => rw [← kept]
      refine scanBracketed_render (by decide) (fun member _ => reads.begins_member member)
        (fun member isMember => reads.scanMember_render (ih member isMember ?_))
        (fun members => JsonValue.object (dictOf members)) rest
      have long := (infix_intercalate_of_mem ", ".toList
        (mem_map_of_mem (f := renderMember style) isMember)).length_le
      have whole := congrArg length split
      have part : (member.2.render style).length ≤ (renderMember style member).length := by
        rw [renderMember, length_append, length_append]
        omega
      simp only [length_append, length_cons] at whole
      omega

/-- What `loads` makes of the text of a valid value. -/
theorem Style.Reads.loads_render {value : Json} (valid : value.Valid IsNumber) {limit : ℕ}
    (enough : (value.render style).length ≤ limit) :
    loads limit (value.render style) = scannedIf (value.leaves.all isRead) value.value := by
  have read := reads.readsText_render valid enough [] (.inl rfl)
  have noMark : (value.render style).head? ≠ some '\uFEFF' := by
    obtain ⟨char, more, written, -, notMark⟩ := reads.begins value
    rw [written]
    simp only [head?_cons, ne_eq, Option.some.injEq]
    rintro rfl
    simp at notMark
  rw [append_nil] at read
  rw [loads, if_neg noMark, skipSpace_of_begins (reads.begins value), read]
  cases value.leaves.all isRead <;> rfl

end Styles

/-! ## JSON -/

theorem begins_number (literal : NumberLiteral) : Begins literal.text := by
  refine ⟨literal.first, literal.rest, rfl, ?_, ?_⟩
  · have notSpace : ∀ char, isNumberStart char = false → literal.first ≠ char :=
      fun _ notStart => literal.first_ne notStart
    simp [isJsonSpace, notSpace ' ' (by decide), notSpace '\t' (by decide),
      notSpace '\n' (by decide), notSpace '\r' (by decide)]
  · simp [literal.first_ne (show isNumberStart ']' = false by decide),
      literal.first_ne (show isNumberStart '}' = false by decide),
      literal.first_ne (show isNumberStart '\uFEFF' = false by decide)]

/-- Every style begins arrays and objects with brackets. -/
theorem begins_array (style : Style) (items : List Json) :
    Begins ((Json.array items).render style) :=
  ⟨_, _, render_array style items, by decide, by decide⟩

theorem begins_object (style : Style) (members : List (Text × Json)) :
    Begins ((Json.object members).render style) :=
  ⟨_, _, render_object style members, by decide, by decide⟩

theorem readsText_number {literal : NumberLiteral} (isNumber : IsNumber literal)
    (enter : Option (Text → Except LoadsError (JsonValue × Text))) :
    ReadsText (scanValue enter) literal.text true (.number literal.text) := by
  intro rest follows
  have notOpening : literal.first ∉ ['"', '[', '{'] := by
    simp [literal.first_ne (show isNumberStart '"' = false by decide),
      literal.first_ne (show isNumberStart '[' = false by decide),
      literal.first_ne (show isNumberStart '{' = false by decide)]
  change scanValue enter (literal.first :: (literal.rest ++ rest)) = _
  rw [scanValue_scalar _ _ notOpening]
  change scanScalar (literal.text ++ rest) = .ok (.number literal.text, rest)
  rcases follows with rfl | ⟨char, more, rfl, isFollower⟩
  · exact isNumber [] (by simp)
  · have read : scanScalar (literal.text ++ [char]) = .ok (.number literal.text, [char]) := by
      refine isNumber [char] ?_
      simp only [mem_cons, not_mem_nil, or_false] at isFollower
      rcases isFollower with rfl | rfl | rfl <;> simp
    have ends : EndsNumber [char] := by
      simp only [mem_cons, not_mem_nil, or_false] at isFollower
      rcases isFollower with rfl | rfl | rfl <;> exact ⟨_, _, rfl, by decide⟩
    have longer := scanScalar_append read ends more
    rwa [append_assoc, singleton_append] at longer

theorem reads_jsonStyle : jsonStyle.Reads fun _ => true where
  begins value := by
    cases value with
    | null => exact ⟨_, _, rfl, by decide, by decide⟩
    | bool value => cases value <;> exact ⟨_, _, rfl, by decide, by decide⟩
    | number literal => exact begins_number literal
    | string text => exact ⟨_, _, rfl, by decide, by decide⟩
    | array items => exact begins_array jsonStyle items
    | object members => exact begins_object jsonStyle members
  null enter rest _ := rfl
  bool enter value rest _ := by cases value <;> rfl
  number enter literal isNumber := readsText_number isNumber enter
  string text rest := by
    refine .inl ⟨text.flatMap writeChar ++ '"' :: rest, ?_, scanString_write text rest⟩
    simp [jsonStyle]

theorem loads_write {value : Json} (valid : value.Valid IsNumber) {limit : ℕ}
    (enough : value.write.length ≤ limit) : loads limit value.write = .ok value.value := by
  have read := reads_jsonStyle.loads_render valid enough
  rwa [all_eq_true.mpr fun _ _ => rfl] at read

theorem loads_spaces {members : List (Text × Json)} (valid : (Json.object members).Valid IsNumber)
    {before after : Text} (spaces : ∀ char ∈ before ++ after, isJsonSpace char = true) {limit : ℕ}
    (enough : (Json.object members).write.length ≤ limit) :
    loads limit (before ++ ((Json.object members).write ++ after)) =
      .ok (Json.object members).value := by
  rw [forall_mem_append] at spaces
  have read := reads_jsonStyle.readsText_render valid enough [] (.inl rfl)
  rw [all_eq_true.mpr fun _ _ => rfl, Json.value] at read
  have longer := scanOnce_append read after
  have noMark : (before ++ ((Json.object members).write ++ after)).head? ≠ some '\uFEFF' := by
    cases before with
    | nil => rw [write_object]; simp
    | cons char before =>
      simp only [cons_append, head?_cons, ne_eq, Option.some.injEq]
      rintro rfl
      exact absurd (spaces.1 _ mem_cons_self) (by decide)
  have begins : skipSpace (before ++ ((Json.object members).write ++ after)) =
      (Json.object members).write ++ after := by
    rw [skipSpace, dropWhile_append_of_pos spaces.1]
    exact skipSpace_of_begins ((begins_object jsonStyle members).append after)
  have ends : skipSpace after = [] := dropWhile_eq_nil_iff.mpr spaces.2
  rw [append_nil, nil_append, ← Json.write] at longer
  rw [loads, if_neg noMark, begins, longer, ok_bind, Json.value]
  exact if_pos ends

/-! ## `repr` -/

/-- A character of a string between double quotes that `repr` writes like JSON. -/
def readsReprChar (isPrintable : Char → Bool) (char : Char) : Bool :=
  ['\\', '\n', '\r', '\t'].contains char ||
    if isPrintable char = true then decide (0x20 ≤ char.toNat)
    else decide (0x100 ≤ char.toNat ∧ char.toNat < 0x10000)

/-- The strings that `repr` writes between double quotes and like JSON, and the numbers that have
no names. -/
def readsRepr (isPrintable : Char → Bool) : Json → Bool
  | .number literal =>
    decide (literal.text ∉ ["NaN".toList, "Infinity".toList, "-Infinity".toList])
  | .string text =>
    decide ('\x27' ∈ text ∧ '"' ∉ text) && text.all (readsReprChar isPrintable)
  | _ => false

section Repr

variable (isPrintable : Char → Bool)

theorem hexValue_hexDigit : ∀ digit < 16, hexValue (hexDigit digit) = some digit := by
  decide

theorem hexDigits_four (code : ℕ) : hexDigits 4 code =
    [hexDigit (code / 16 / 16 / 16 % 16), hexDigit (code / 16 / 16 % 16),
      hexDigit (code / 16 % 16), hexDigit (code % 16)] :=
  rfl

theorem hexCode_hexDigits {code : ℕ} (small : code < 0x10000) :
    hexCode (hexDigit (code / 16 / 16 / 16 % 16)) (hexDigit (code / 16 / 16 % 16))
      (hexDigit (code / 16 % 16)) (hexDigit (code % 16)) = some code := by
  have digit (number : ℕ) : hexValue (hexDigit (number % 16)) = some (number % 16) :=
    hexValue_hexDigit _ (Nat.mod_lt _ (by decide))
  rw [hexCode, digit, digit, digit, digit]
  refine congrArg some ?_
  omega

theorem scanBody_reprChar {char : Char} (notQuote : char ≠ '"') (rest : Text) :
    scanBody (reprChar isPrintable '"' char ++ rest) =
      if readsReprChar isPrintable char = true then
        (scanBody rest).map fun scanned => (char.toNat :: scanned.1, scanned.2)
      else .error .jsonDecodeError := by
  unfold reprChar readsReprChar
  by_cases escape : char = '\\'
  · subst escape
    rfl
  by_cases newline : char = '\n'
  · subst newline
    rfl
  by_cases carriageReturn : char = '\r'
  · subst carriageReturn
    rfl
  by_cases tab : char = '\t'
  · subst tab
    rfl
  rw [if_neg (by simp [notQuote, escape]), if_neg newline, if_neg carriageReturn, if_neg tab]
  have noEscape : ['\\', '\n', '\r', '\t'].contains char = false := by
    simp [escape, newline, carriageReturn, tab]
  rw [noEscape, Bool.false_or]
  by_cases printable : isPrintable char = true
  · rw [if_pos printable, if_pos printable, singleton_append, scanBody_plain notQuote escape]
    by_cases control : char.toNat < 0x20
    · rw [if_pos control, if_neg (by simpa using control)]
    · rw [if_neg control, if_pos (by simpa using control)]
  · rw [if_neg printable, if_neg printable]
    by_cases isShort : char.toNat < 0x100
    · rw [if_pos isShort, if_neg]
      · rfl
      · simp only [decide_eq_true_eq]
        omega
    by_cases small : char.toNat < 0x10000
    · rw [if_neg isShort, if_pos small, if_pos (by simp only [decide_eq_true_eq]; omega),
        hexDigits_four]
      change scanBody ('\\' :: 'u' :: _ :: _ :: _ :: _ :: rest) = _
      rw [scanBody, hexCode_hexDigits small]
    · rw [if_neg isShort, if_neg small, if_neg]
      · rfl
      · simp only [decide_eq_true_eq]
        omega

theorem scanString_repr {text : Text} (notQuote : '"' ∉ text) (rest : Text) :
    scanString (text.flatMap (reprChar isPrintable '"') ++ '"' :: rest) =
      scannedIf (text.all (readsReprChar isPrintable)) (codes text, rest) := by
  have body : scanBody (text.flatMap (reprChar isPrintable '"') ++ '"' :: rest) =
      scannedIf (text.all (readsReprChar isPrintable)) (codes text, rest) := by
    induction text with
    | nil => rfl
    | cons char text ih =>
      rw [mem_cons, not_or] at notQuote
      rw [flatMap_cons, append_assoc,
        scanBody_reprChar isPrintable (Ne.symm notQuote.1), ih notQuote.2, all_cons]
      cases readsReprChar isPrintable char with
      | false => rfl
      | true => cases text.all (readsReprChar isPrintable) <;> rfl
  rw [scanString, body]
  cases text.all (readsReprChar isPrintable) with
  | false => rfl
  | true =>
    change Except.ok (joinSurrogates (codes text), rest) = _
    rw [joinSurrogates_codes]
    rfl

theorem reads_reprStyle : (reprStyle isPrintable).Reads (readsRepr isPrintable) where
  begins value := by
    cases value with
    | null => exact ⟨_, _, rfl, by decide, by decide⟩
    | bool value => cases value <;> exact ⟨_, _, rfl, by decide, by decide⟩
    | number literal =>
      change Begins (reprNumber literal)
      unfold reprNumber
      split
      · exact ⟨_, _, rfl, by decide, by decide⟩
      split
      · exact ⟨_, _, rfl, by decide, by decide⟩
      split
      · exact ⟨_, _, rfl, by decide, by decide⟩
      · exact begins_number literal
    | string text =>
      change Begins (reprString isPrintable text)
      unfold reprString
      split
      · exact ⟨_, _, rfl, by decide, by decide⟩
      · exact ⟨_, _, rfl, by decide, by decide⟩
    | array items => exact begins_array _ items
    | object members => exact begins_object _ members
  null enter rest _ := rfl
  bool enter value rest _ := by cases value <;> rfl
  number enter literal isNumber := by
    change ReadsText _ (reprNumber literal) _ _
    rw [readsRepr, reprNumber]
    split
    · rename_i isName
      rw [isName]
      exact fun rest _ => rfl
    split
    · rename_i isName
      rw [isName]
      exact fun rest _ => rfl
    split
    · rename_i isName
      rw [isName]
      exact fun rest _ => rfl
    · rename_i notNaN notInfinity notNegative
      rw [decide_eq_true]
      · exact readsText_number isNumber enter
      · simp only [mem_cons, notNaN, notInfinity, notNegative, not_mem_nil, or_self,
          not_false_eq_true]
  string text rest := by
    change (∃ more, reprString isPrintable text ++ rest = _ ∧ _) ∨ _ ∧ ∃ more,
      reprString isPrintable text ++ rest = _
    rw [readsRepr, reprString]
    by_cases double : '\x27' ∈ text ∧ '"' ∉ text
    · rw [if_pos double, decide_eq_true double, Bool.true_and]
      refine .inl ⟨text.flatMap (reprChar isPrintable '"') ++ '"' :: rest, by simp, ?_⟩
      exact scanString_repr isPrintable double.2 rest
    · rw [if_neg double, decide_eq_false double, Bool.false_and]
      exact .inr ⟨rfl, _, rfl⟩

end Repr

/-! ## Escapes of braces -/

def isBrace (char : Char) : Prop := char = '\x7b' ∨ char = '\x7d'

/-- What follows a backslash in an escape of a brace, in JSON or in Python. -/
def braceEscapes : List Text :=
  ["x7b", "x7B", "x7d", "x7D", "173", "175", "u007b", "u007B", "u007d", "u007D", "U0000007b",
    "U0000007B", "U0000007d", "U0000007D", "N"].map String.toList

/-- Whether an escape of a brace begins behind a backslash. -/
def escapesBrace (text : Text) : Bool := braceEscapes.any fun escape => escape.isPrefixOf text

/-- Whether no backslash of a text begins an escape of a brace. A backslash takes the next
character with it. -/
def noBraceEscape : Text → Bool
  | [] => true
  | ['\\'] => true
  | '\\' :: char :: rest => !escapesBrace (char :: rest) && noBraceEscape rest
  | _ :: rest => noBraceEscape rest

end Geobench.Library
