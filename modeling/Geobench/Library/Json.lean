import Mathlib.Tactic.Common

/-!
# JSON values and their serialisation

A JSON value, and the text `json.dumps` writes for it with its default options: `, ` and
`: ` as separators, and every character that is not a printable character of ASCII
written as an escape.

The text determines the value (`dumps_injective`). Every value is written as a text that
tells where it ends, except a number, which ends where no character of a number follows
(`dump_append_inj`). An object is the list of its members, so that the order of its keys
is part of the value.
-/

namespace Geobench.Library

open List

/-! ## Values -/

def isNumberStart (char : Char) : Bool :=
  char.isDigit || "-NI".toList.contains char

/-- The characters of integers, of floats with and without an exponent, and of the names
of the values that are not numbers. -/
def isNumberChar (char : Char) : Bool :=
  char.isDigit || "+-.eENaInfity".toList.contains char

structure NumberLiteral where
  first : Char
  rest : List Char
  starts : isNumberStart first = true
  chars : ∀ char ∈ rest, isNumberChar char = true
  deriving DecidableEq

inductive Json where
  | null
  | bool (value : Bool)
  | number (literal : NumberLiteral)
  | string (text : List Char)
  | array (items : List Json)
  | object (members : List (List Char × Json))

/-! ## Serialisation -/

def hexDigit (digit : ℕ) : Char := "0123456789abcdef".toList.getD digit '0'

/-- Four digits, with zeros in front. -/
def hex4 (code : ℕ) : List Char :=
  [hexDigit (code / 4096), hexDigit (code / 256 % 16), hexDigit (code / 16 % 16),
    hexDigit (code % 16)]

/-- The letter of a character that has an escape of its own. -/
def shortEscape (char : Char) : Option Char :=
  [('"', '"'), ('\\', '\\'), ('\n', 'n'), ('\r', 'r'), ('\t', 't'), ('\x0c', 'f'),
    ('\x08', 'b')].lookup char

/-- A character of a string: as it is, by its own escape, by its code, or by the codes of
a surrogate pair. -/
def escapeChar (char : Char) : List Char :=
  match shortEscape char with
  | some letter => ['\\', letter]
  | none =>
    if ' ' ≤ char ∧ char ≤ '~' then [char]
    else if char.toNat < 0x10000 then '\\' :: 'u' :: hex4 char.toNat
    else
      '\\' :: 'u' :: hex4 (0xd800 + (char.toNat - 0x10000) / 0x400) ++
        '\\' :: 'u' :: hex4 (0xdc00 + (char.toNat - 0x10000) % 0x400)

def dumpString (text : List Char) : List Char :=
  '"' :: text.flatMap escapeChar ++ ['"']

mutual

/-- The text of a value. -/
def Json.dumps : Json → List Char
  | .null => "null".toList
  | .bool true => "true".toList
  | .bool false => "false".toList
  | .number literal => literal.first :: literal.rest
  | .string text => dumpString text
  | .array [] => ['[', ']']
  | .array (item :: items) => '[' :: (item.dumps ++ dumpItems items)
  | .object [] => ['{', '}']
  | .object ((key, value) :: members) =>
    '{' :: (dumpString key ++ ": ".toList ++ value.dumps ++ dumpMembers members)

/-- The items of an array after the first one, and its end. -/
def dumpItems : List Json → List Char
  | [] => [']']
  | item :: items => ", ".toList ++ item.dumps ++ dumpItems items

/-- The members of an object after the first one, and its end. -/
def dumpMembers : List (List Char × Json) → List Char
  | [] => ['}']
  | (key, value) :: members =>
    ", ".toList ++ dumpString key ++ ": ".toList ++ value.dumps ++ dumpMembers members

end

example : Json.dumps (.array [.object [("role".toList, .string "user".toList),
    ("content".toList, .string "Où \"est\" 😀?\n".toList)]]) =
      "[\x7b\"role\": \"user\", \"content\": \"O\\u00f9 \\\"est\\\" \\ud83d\\ude00?\\n\"\x7d]".toList := by
  decide

/-! ## Strings -/

theorem hexDigit_inj : ∀ digit < 16, ∀ other < 16, hexDigit digit = hexDigit other →
    digit = other := by
  decide

variable {rest rest' : List Char}

theorem hex4_append_inj {code other : ℕ} (small : code < 65536) (smallOther : other < 65536)
    (same : hex4 code ++ rest = hex4 other ++ rest') : code = other ∧ rest = rest' := by
  simp only [hex4, cons_append, nil_append, List.cons.injEq] at same
  obtain ⟨first, second, third, fourth, rests⟩ := same
  have firsts := hexDigit_inj _ (by omega) _ (by omega) first
  have seconds := hexDigit_inj _ (by omega) _ (by omega) second
  have thirds := hexDigit_inj _ (by omega) _ (by omega) third
  have fourths := hexDigit_inj _ (by omega) _ (by omega) fourth
  exact ⟨by omega, rests⟩

variable {char : Char}

/-- The characters with an escape of their own, and their letters. -/
theorem shortEscape_eq_some {letter : Char} (short : shortEscape char = some letter) :
    (char, letter) ∈ [('"', '"'), ('\\', '\\'), ('\n', 'n'), ('\r', 'r'), ('\t', 't'),
      ('\x0c', 'f'), ('\x08', 'b')] := by
  obtain ⟨before, after, isTable, -⟩ := lookup_eq_some_iff.mp short
  rw [isTable]
  simp

/-- How a character is written. -/
inductive Escaped (char : Char) : List Char → Prop where
  | plain : char ≠ '\\' → char ≠ '"' → Escaped char [char]
  | short (letter : Char) : shortEscape char = some letter → Escaped char ['\\', letter]
  | code : char.toNat < 65536 → Escaped char ('\\' :: 'u' :: hex4 char.toNat)
  | pair : 65536 ≤ char.toNat →
      Escaped char ('\\' :: 'u' :: (hex4 (0xd800 + (char.toNat - 0x10000) / 0x400) ++
        '\\' :: 'u' :: hex4 (0xdc00 + (char.toNat - 0x10000) % 0x400)))

theorem escaped_escapeChar (char : Char) : Escaped char (escapeChar char) := by
  unfold escapeChar
  cases short : shortEscape char with
  | some letter => exact .short letter short
  | none =>
    dsimp only
    split
    · refine .plain ?_ ?_
      · rintro rfl
        exact absurd short (by decide)
      · rintro rfl
        exact absurd short (by decide)
    · split
      · rename_i small
        exact .code small
      · rename_i large
        exact .pair (Nat.le_of_not_lt large)

variable {other : Char}

theorem shortEscape_inj {letter : Char} (short : shortEscape char = some letter)
    (shortOther : shortEscape other = some letter) : char = other := by
  have member := shortEscape_eq_some short
  have memberOther := shortEscape_eq_some shortOther
  simp only [mem_cons, Prod.mk.injEq, not_mem_nil, or_false] at member memberOther
  rcases member with ⟨rfl, rfl⟩ | ⟨rfl, rfl⟩ | ⟨rfl, rfl⟩ | ⟨rfl, rfl⟩ | ⟨rfl, rfl⟩ |
    ⟨rfl, rfl⟩ | ⟨rfl, rfl⟩ <;> simp at memberOther <;> exact memberOther.symm

theorem shortEscape_ne_u (char : Char) : shortEscape char ≠ some 'u' := by
  intro short
  have member := shortEscape_eq_some short
  simp at member

/-- The code of a character is not that of half a surrogate pair. -/
theorem not_surrogate (char : Char) : char.toNat < 0xd800 ∨ 0xdfff < char.toNat := by
  rcases char.valid with low | high
  · exact .inl low
  · exact .inr high.1

theorem toNat_lt (char : Char) : char.toNat < 0x110000 := by
  rcases char.valid with low | high
  · exact Nat.lt_trans low (by decide)
  · exact high.2

theorem escapeChar_append_inj (same : escapeChar char ++ rest = escapeChar other ++ rest') :
    char = other ∧ rest = rest' := by
  have shape := escaped_escapeChar char
  have shapeOther := escaped_escapeChar other
  generalize escapeChar char = text at same shape
  generalize escapeChar other = text' at same shapeOther
  cases shape with
  | plain notBackslash _ =>
    cases shapeOther <;> simp only [cons_append, nil_append, List.cons.injEq] at same
    case plain => exact same
    all_goals exact absurd same.1 notBackslash
  | short letter short =>
    cases shapeOther <;> simp only [cons_append, nil_append, List.cons.injEq] at same
    case plain notBackslash _ => exact absurd same.1.symm notBackslash
    case short shortOther =>
      obtain ⟨-, rfl, rests⟩ := same
      exact ⟨shortEscape_inj short shortOther, rests⟩
    all_goals
      obtain ⟨-, rfl, -⟩ := same
      exact absurd short (shortEscape_ne_u char)
  | code small =>
    cases shapeOther <;> simp only [cons_append, nil_append, List.cons.injEq,
      append_assoc, true_and] at same
    case plain notBackslash _ => exact absurd same.1.symm notBackslash
    case short shortOther =>
      obtain ⟨rfl, -⟩ := same
      exact absurd shortOther (shortEscape_ne_u other)
    case code smallOther =>
      obtain ⟨codes, rests⟩ := hex4_append_inj small smallOther same
      exact ⟨Char.toNat_inj.mp codes, rests⟩
    case pair large =>
      have bound := toNat_lt other
      obtain ⟨codes, -⟩ := hex4_append_inj small (by omega) same
      have := not_surrogate char
      omega
  | pair large =>
    have bound := toNat_lt char
    cases shapeOther <;> simp only [cons_append, nil_append, List.cons.injEq,
      append_assoc, true_and] at same
    case plain notBackslash _ => exact absurd same.1.symm notBackslash
    case short shortOther =>
      obtain ⟨rfl, -⟩ := same
      exact absurd shortOther (shortEscape_ne_u other)
    case code smallOther =>
      obtain ⟨codes, -⟩ := hex4_append_inj (by omega) smallOther same
      have := not_surrogate other
      omega
    case pair largeOther =>
      have boundOther := toNat_lt other
      obtain ⟨highs, rest⟩ := hex4_append_inj (by omega) (by omega) same
      simp only [List.cons.injEq, true_and] at rest
      obtain ⟨lows, rests⟩ := hex4_append_inj (by omega) (by omega) rest
      exact ⟨Char.toNat_inj.mp (by omega), rests⟩

theorem escapeChar_append_ne_quote (char : Char) (rest rest' : List Char) :
    escapeChar char ++ rest ≠ '"' :: rest' := by
  intro same
  have shape := escaped_escapeChar char
  generalize escapeChar char = text at same shape
  cases shape with
  | plain _ notQuote =>
    simp only [cons_append, nil_append, List.cons.injEq] at same
    exact notQuote same.1
  | short => simp at same
  | code => simp at same
  | pair => simp at same

/-- The text of a string tells where it ends. -/
theorem dumpString_append_inj {text other : List Char}
    (same : dumpString text ++ rest = dumpString other ++ rest') : text = other ∧ rest = rest' := by
  simp only [dumpString, cons_append, append_assoc, nil_append, List.cons.injEq, true_and] at same
  induction text generalizing other with
  | nil =>
    cases other with
    | nil => simpa using same
    | cons char chars =>
      simp only [flatMap_nil, nil_append, flatMap_cons, append_assoc] at same
      exact absurd same.symm (escapeChar_append_ne_quote _ _ _)
  | cons char chars ih =>
    cases other with
    | nil =>
      simp only [flatMap_nil, nil_append, flatMap_cons, append_assoc] at same
      exact absurd same (escapeChar_append_ne_quote _ _ _)
    | cons char' chars' =>
      simp only [flatMap_cons, append_assoc] at same
      obtain ⟨rfl, rest⟩ := escapeChar_append_inj same
      obtain ⟨rfl, rests⟩ := ih rest
      exact ⟨rfl, rests⟩

/-! ## Values -/

/-- A text that does not go on with a number. -/
def Stops (rest : List Char) : Prop :=
  ∀ char ∈ rest.head?, isNumberChar char = false

/-- Characters of numbers followed by texts that stop are equal. -/
theorem number_append_inj {chars other : List Char}
    (numeric : ∀ char ∈ chars, isNumberChar char = true)
    (numericOther : ∀ char ∈ other, isNumberChar char = true) (stops : Stops rest)
    (stopsOther : Stops rest') (same : chars ++ rest = other ++ rest') :
    chars = other ∧ rest = rest' := by
  induction chars generalizing other with
  | nil =>
    cases other with
    | nil => exact ⟨rfl, same⟩
    | cons char' other =>
      have stopped := stops char' (by rw [show rest = _ from same]; rfl)
      rw [numericOther char' mem_cons_self] at stopped
      cases stopped
  | cons char chars ih =>
    cases other with
    | nil =>
      have stopped := stopsOther char (by rw [← show _ = rest' from same]; rfl)
      rw [numeric char mem_cons_self] at stopped
      cases stopped
    | cons char' other =>
      simp only [cons_append, List.cons.injEq] at same
      obtain ⟨rfl, tails⟩ := same
      obtain ⟨rfl, rests⟩ := ih (fun char member => numeric char (mem_cons_of_mem _ member))
        (fun char member => numericOther char (mem_cons_of_mem _ member)) tails
      exact ⟨rfl, rests⟩

theorem stops_dumpItems (items : List Json) (rest : List Char) :
    Stops (dumpItems items ++ rest) := by
  intro char isHead
  cases items <;> cases isHead <;> decide

theorem stops_dumpMembers (members : List (List Char × Json)) (rest : List Char) :
    Stops (dumpMembers members ++ rest) := by
  intro char isHead
  cases members <;> cases isHead <;> decide

/-- The kinds of values, which their first characters tell apart. -/
inductive JsonKind where
  | null
  | true
  | false
  | number
  | string
  | array
  | object
  deriving DecidableEq

def Json.kind : Json → JsonKind
  | .null => .null
  | .bool .true => .true
  | .bool .false => .false
  | .number _ => .number
  | .string _ => .string
  | .array _ => .array
  | .object _ => .object

/-- The kind of value a character begins. -/
def leadKind (char : Char) : JsonKind :=
  if char = 'n' then .null
  else if char = 't' then .true
  else if char = 'f' then .false
  else if char = '"' then .string
  else if char = '[' then .array
  else if char = '{' then .object
  else .number

/-- A number begins with a character of its own. -/
theorem NumberLiteral.first_ne (literal : NumberLiteral) (notStart : isNumberStart other = false) :
    literal.first ≠ other := by
  intro same
  have starts := literal.starts
  rw [same, notStart] at starts
  cases starts

theorem leadKind_number (literal : NumberLiteral) : leadKind literal.first = .number := by
  unfold leadKind
  rw [if_neg (literal.first_ne (by decide)), if_neg (literal.first_ne (by decide)),
    if_neg (literal.first_ne (by decide)), if_neg (literal.first_ne (by decide)),
    if_neg (literal.first_ne (by decide)), if_neg (literal.first_ne (by decide))]

/-- The first character of a value tells its kind, and does not close an array. -/
theorem exists_lead (value : Json) :
    ∃ char rest, value.dumps = char :: rest ∧ leadKind char = value.kind ∧ char ≠ ']' := by
  cases value with
  | null => exact ⟨_, _, rfl, rfl, by decide⟩
  | bool value => cases value <;> exact ⟨_, _, rfl, rfl, by decide⟩
  | number literal =>
    exact ⟨_, _, by rw [Json.dumps], leadKind_number literal, literal.first_ne (by decide)⟩
  | string text => exact ⟨_, _, by rw [Json.dumps, dumpString, cons_append], rfl, by decide⟩
  | array items => cases items <;> exact ⟨_, _, by rw [Json.dumps], rfl, by decide⟩
  | object members =>
    cases members with
    | nil => exact ⟨_, _, by rw [Json.dumps], rfl, by decide⟩
    | cons member members =>
      obtain ⟨key, value⟩ := member
      exact ⟨_, _, by rw [Json.dumps], rfl, by decide⟩

theorem dumps_append_ne_close (value : Json) (rest rest' : List Char) :
    value.dumps ++ rest ≠ ']' :: rest' := by
  intro same
  obtain ⟨char, chars, written, -, notClose⟩ := exists_lead value
  rw [written, cons_append, List.cons.injEq] at same
  exact notClose same.1

theorem kind_eq_of_dumps_append {value other : Json}
    (same : value.dumps ++ rest = other.dumps ++ rest') : value.kind = other.kind := by
  obtain ⟨char, chars, written, lead, -⟩ := exists_lead value
  obtain ⟨char', chars', written', lead', -⟩ := exists_lead other
  rw [written, written', cons_append, cons_append, List.cons.injEq] at same
  rw [← lead, ← lead', same.1]

mutual

/-- The text of a value tells where it ends, unless a number may go on. -/
theorem dump_append_inj (value other : Json) {rest rest' : List Char} (stops : Stops rest)
    (stopsOther : Stops rest') (same : value.dumps ++ rest = other.dumps ++ rest') :
    value = other ∧ rest = rest' := by
  have kinds := kind_eq_of_dumps_append same
  match value, other with
  | .null, .null => exact ⟨rfl, append_cancel_left same⟩
  | .bool true, .bool true => exact ⟨rfl, append_cancel_left same⟩
  | .bool false, .bool false => exact ⟨rfl, append_cancel_left same⟩
  | .number literal, .number literal' =>
    obtain ⟨first, chars, starts, numeric⟩ := literal
    obtain ⟨first', chars', starts', numeric'⟩ := literal'
    simp only [Json.dumps, cons_append, List.cons.injEq] at same
    obtain ⟨rfl, tails⟩ := same
    obtain ⟨rfl, rests⟩ := number_append_inj numeric numeric' stops stopsOther tails
    exact ⟨rfl, rests⟩
  | .string text, .string text' =>
    simp only [Json.dumps] at same
    obtain ⟨rfl, rests⟩ := dumpString_append_inj same
    exact ⟨rfl, rests⟩
  | .array [], .array [] => exact ⟨rfl, append_cancel_left same⟩
  | .array [], .array (item :: items) =>
    simp only [Json.dumps, cons_append, List.cons.injEq, true_and, nil_append, append_assoc] at same
    exact absurd same.symm (dumps_append_ne_close item _ _)
  | .array (item :: items), .array [] =>
    simp only [Json.dumps, cons_append, List.cons.injEq, true_and, nil_append, append_assoc] at same
    exact absurd same (dumps_append_ne_close item _ _)
  | .array (item :: items), .array (item' :: items') =>
    simp only [Json.dumps, cons_append, List.cons.injEq, true_and, append_assoc] at same
    obtain ⟨rfl, tails⟩ := dump_append_inj item item' (stops_dumpItems _ _)
      (stops_dumpItems _ _) same
    obtain ⟨rfl, rests⟩ := dumpItems_append_inj items items' tails
    exact ⟨rfl, rests⟩
  | .object [], .object [] => exact ⟨rfl, append_cancel_left same⟩
  | .object [], .object (_ :: _) => simp [Json.dumps, dumpString] at same
  | .object (_ :: _), .object [] => simp [Json.dumps, dumpString] at same
  | .object ((key, value) :: members), .object ((key', value') :: members') =>
    simp only [Json.dumps, cons_append, List.cons.injEq, true_and, append_assoc] at same
    obtain ⟨rfl, tails⟩ := dumpString_append_inj same
    obtain ⟨rfl, others⟩ := dump_append_inj value value' (stops_dumpMembers _ _)
      (stops_dumpMembers _ _) (append_cancel_left tails)
    obtain ⟨rfl, rests⟩ := dumpMembers_append_inj members members' others
    exact ⟨rfl, rests⟩

theorem dumpItems_append_inj (items other : List Json) {rest rest' : List Char}
    (same : dumpItems items ++ rest = dumpItems other ++ rest') :
    items = other ∧ rest = rest' := by
  match items, other with
  | [], [] => exact ⟨rfl, append_cancel_left same⟩
  | [], _ :: _ => simp [dumpItems] at same
  | _ :: _, [] => simp [dumpItems] at same
  | item :: items, item' :: items' =>
    simp only [dumpItems, append_assoc] at same
    obtain ⟨rfl, tails⟩ := dump_append_inj item item' (stops_dumpItems _ _)
      (stops_dumpItems _ _) (append_cancel_left same)
    obtain ⟨rfl, rests⟩ := dumpItems_append_inj items items' tails
    exact ⟨rfl, rests⟩

theorem dumpMembers_append_inj (members other : List (List Char × Json)) {rest rest' : List Char}
    (same : dumpMembers members ++ rest = dumpMembers other ++ rest') :
    members = other ∧ rest = rest' := by
  match members, other with
  | [], [] => exact ⟨rfl, append_cancel_left same⟩
  | [], (_, _) :: _ => simp [dumpMembers] at same
  | (_, _) :: _, [] => simp [dumpMembers] at same
  | (key, value) :: members, (key', value') :: members' =>
    simp only [dumpMembers, append_assoc] at same
    obtain ⟨rfl, tails⟩ := dumpString_append_inj (append_cancel_left same)
    obtain ⟨rfl, others⟩ := dump_append_inj value value' (stops_dumpMembers _ _)
      (stops_dumpMembers _ _) (append_cancel_left tails)
    obtain ⟨rfl, rests⟩ := dumpMembers_append_inj members members' others
    exact ⟨rfl, rests⟩

end

/-- Different values have different texts. -/
theorem dumps_injective : Function.Injective Json.dumps := by
  intro value other same
  have stops : Stops [] := by
    intro char isHead
    cases isHead
  exact (dump_append_inj value other stops stops (by rw [same])).1

end Geobench.Library
