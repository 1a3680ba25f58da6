import Geobench.Library.Json
import Geobench.Library.Loop
import Geobench.Library.Text
import Mathlib.Tactic.IntervalCases

/-!
# Decoding JSON texts

`loads` reads a JSON text. Strings are sequences of code points, as an escape may name half of a
pair. Of members with one key the last is kept. A text that is not JSON, an integer with too many
digits and values that are nested too deep are told apart by their errors.

What a scan uses begins and ends outside the strings of the text, so the
characters outside strings are those of an alphabet without quotes and escapes
(`Mode.run`). Two readings of one text, of which one begins inside a string and the other does
not, never agree on where the strings are (`run_opposite`).
-/

namespace Geobench.Library

open List

/-! ## Values -/

abbrev CodePoints := List ℕ

instance lawfulBEqCodePoints : LawfulBEq CodePoints := inferInstance

def codes (text : Text) : CodePoints := text.map Char.toNat

inductive JsonValue where
  | null
  | bool (value : Bool)
  | number (literal : Text)
  | string (value : CodePoints)
  | array (items : List JsonValue)
  | object (members : List (CodePoints × JsonValue))

inductive LoadsError where
  | jsonDecodeError
  | valueError
  | recursionError
  deriving DecidableEq, Repr

def setMember (members : List (CodePoints × JsonValue)) (key : CodePoints) (value : JsonValue) :
    List (CodePoints × JsonValue) :=
  if key ∈ members.map Prod.fst then
    members.map fun member => if member.1 = key then (key, value) else member
  else members ++ [(key, value)]

/-- An object with the last of the members of each key. -/
def dictOf (pairs : List (CodePoints × JsonValue)) : List (CodePoints × JsonValue) :=
  pairs.foldl (fun members pair => setMember members pair.1 pair.2) []

def getMember (members : List (CodePoints × JsonValue)) (key : CodePoints) : Option JsonValue :=
  (members.find? fun member => member.1 = key).map Prod.snd

/-! ## Strings -/

def hexValue (char : Char) : Option ℕ :=
  if '0' ≤ char ∧ char ≤ '9' then some (char.toNat - '0'.toNat)
  else if 'a' ≤ char ∧ char ≤ 'f' then some (char.toNat - 'a'.toNat + 10)
  else if 'A' ≤ char ∧ char ≤ 'F' then some (char.toNat - 'A'.toNat + 10)
  else none

/-- The number that four hexadecimal digits write. -/
def hexCode (first second third fourth : Char) : Option ℕ := do
  let first ← hexValue first
  let second ← hexValue second
  let third ← hexValue third
  let fourth ← hexValue fourth
  some (((first * 16 + second) * 16 + third) * 16 + fourth)

/-- The code point that a letter stands for after a backslash. -/
def escapeCode : Char → Option ℕ
  | '"' => some 0x22
  | '\\' => some 0x5c
  | '/' => some 0x2f
  | 'b' => some 0x08
  | 'f' => some 0x0c
  | 'n' => some 0x0a
  | 'r' => some 0x0d
  | 't' => some 0x09
  | _ => none

/-- Both halves of a pair as one code point. -/
def joinSurrogates : CodePoints → CodePoints
  | high :: low :: rest =>
    if (0xd800 ≤ high ∧ high ≤ 0xdbff) ∧ (0xdc00 ≤ low ∧ low ≤ 0xdfff) then
      (0x10000 + (high - 0xd800) * 0x400 + (low - 0xdc00)) :: joinSurrogates rest
    else high :: joinSurrogates (low :: rest)
  | rest => rest

/-- What is left of a string, and what follows its closing quote. -/
def scanBody : Text → Except LoadsError (CodePoints × Text)
  | [] => .error .jsonDecodeError
  | '"' :: rest => .ok ([], rest)
  | '\\' :: 'u' :: first :: second :: third :: fourth :: rest =>
    match hexCode first second third fourth with
    | none => .error .jsonDecodeError
    | some code => (scanBody rest).map fun scanned => (code :: scanned.1, scanned.2)
  | '\\' :: escape :: rest =>
    match escapeCode escape with
    | none => .error .jsonDecodeError
    | some code => (scanBody rest).map fun scanned => (code :: scanned.1, scanned.2)
  | char :: rest =>
    if char.toNat < 0x20 then .error .jsonDecodeError
    else (scanBody rest).map fun scanned => (char.toNat :: scanned.1, scanned.2)

def scanString (text : Text) : Except LoadsError (CodePoints × Text) :=
  (scanBody text).map fun scanned => (joinSurrogates scanned.1, scanned.2)

/-! ## Numbers -/

def isJsonDigit (char : Char) : Bool := '0' ≤ char ∧ char ≤ '9'

/-- The digits after a point, if any follow it. -/
def scanFraction (text : Text) : Text × Text :=
  match text with
  | '.' :: rest =>
    if rest.takeWhile isJsonDigit = [] then ([], text)
    else ('.' :: rest.takeWhile isJsonDigit, rest.dropWhile isJsonDigit)
  | _ => ([], text)

/-- A sign that a number may have. -/
def scanSign (signs : List Char) (text : Text) : Text × Text :=
  match text with
  | sign :: rest => if sign ∈ signs then ([sign], rest) else ([], text)
  | [] => ([], [])

/-- The exponent, if digits follow its letter and sign. -/
def scanExponent (text : Text) : Text × Text :=
  match text with
  | [] => ([], [])
  | letter :: rest =>
    let signed := scanSign ['+', '-'] rest
    if (letter = 'e' ∨ letter = 'E') ∧ signed.2.takeWhile isJsonDigit ≠ [] then
      (letter :: (signed.1 ++ signed.2.takeWhile isJsonDigit), signed.2.dropWhile isJsonDigit)
    else ([], text)

/-- The digits before the point. No others follow a zero. -/
def scanInteger (text : Text) : Option (Text × Text) :=
  match text with
  | '0' :: rest => some (['0'], rest)
  | _ =>
    if text.takeWhile isJsonDigit = [] then none
    else some (text.takeWhile isJsonDigit, text.dropWhile isJsonDigit)

def maxIntDigits : ℕ := 4300

/-- A number. The number of digits of an integer is limited. -/
def scanNumber (text : Text) : Except LoadsError (JsonValue × Text) :=
  let signed := scanSign ['-'] text
  match scanInteger signed.2 with
  | none => .error .jsonDecodeError
  | some integer =>
    let fraction := scanFraction integer.2
    let exponent := scanExponent fraction.2
    if fraction.1 = [] ∧ exponent.1 = [] ∧ maxIntDigits < integer.1.length then
      .error .valueError
    else .ok (.number (signed.1 ++ (integer.1 ++ (fraction.1 ++ exponent.1))), exponent.2)

/-! ## Arrays and objects -/

def isJsonSpace (char : Char) : Bool :=
  char = ' ' || char = '\t' || char = '\n' || char = '\r'

def skipSpace (text : Text) : Text := text.dropWhile isJsonSpace

section Containers

variable (scan : Text → Except LoadsError (JsonValue × Text))

def scanItems : ℕ → Text → Except LoadsError (List JsonValue × Text)
  | 0, _ => .error .jsonDecodeError
  | fuel + 1, text => do
      let scanned ← scan text
      match skipSpace scanned.2 with
      | ']' :: rest => .ok ([scanned.1], rest)
      | ',' :: rest =>
        (scanItems fuel (skipSpace rest)).map fun items => (scanned.1 :: items.1, items.2)
      | _ => .error .jsonDecodeError

def scanMember (text : Text) : Except LoadsError ((CodePoints × JsonValue) × Text) :=
  match text with
  | '"' :: text => do
      let key ← scanString text
      match skipSpace key.2 with
      | ':' :: rest =>
        (scan (skipSpace rest)).map fun scanned => ((key.1, scanned.1), scanned.2)
      | _ => .error .jsonDecodeError
  | _ => .error .jsonDecodeError

def scanMembers : ℕ → Text → Except LoadsError (List (CodePoints × JsonValue) × Text)
  | 0, _ => .error .jsonDecodeError
  | fuel + 1, text => do
      let member ← scanMember scan text
      match skipSpace member.2 with
      | '}' :: rest => .ok ([member.1], rest)
      | ',' :: rest =>
        (scanMembers fuel (skipSpace rest)).map fun members =>
          (member.1 :: members.1, members.2)
      | _ => .error .jsonDecodeError

def scanArray (text : Text) : Except LoadsError (JsonValue × Text) :=
  match skipSpace text with
  | ']' :: rest => .ok (.array [], rest)
  | rest => (scanItems scan rest.length rest).map fun items => (.array items.1, items.2)

def scanObject (text : Text) : Except LoadsError (JsonValue × Text) :=
  match skipSpace text with
  | '}' :: rest => .ok (.object [], rest)
  | rest => (scanMembers scan rest.length rest).map fun members =>
    (.object (dictOf members.1), members.2)

/-- Elements with commas between them, up to a closing bracket. -/
def scanElements {α : Type} (element : Text → Except LoadsError (α × Text)) (closing : Char) :
    ℕ → Text → Except LoadsError (List α × Text)
  | 0, _ => .error .jsonDecodeError
  | fuel + 1, text => do
      let scanned ← element text
      match skipSpace scanned.2 with
      | [] => .error .jsonDecodeError
      | char :: rest =>
        if char = closing then .ok ([scanned.1], rest)
        else if char = ',' then
          (scanElements element closing fuel (skipSpace rest)).map fun later =>
            (scanned.1 :: later.1, later.2)
        else .error .jsonDecodeError

theorem scanItems_eq (fuel : ℕ) (text : Text) :
    scanItems scan fuel text = scanElements scan ']' fuel text := by
  induction fuel generalizing text with
  | zero => rfl
  | succ fuel ih =>
    rw [scanItems, scanElements]
    refine bind_congr fun scanned => ?_
    split
    · rename_i isRest
      rw [isRest]
      rfl
    · rename_i isRest
      rw [isRest, ih]
      rfl
    · rename_i notClosing notComma
      split
      · rfl
      · rename_i char rest isRest
        rw [if_neg, if_neg]
        · rintro rfl
          exact notComma _ isRest
        · rintro rfl
          exact notClosing _ isRest

theorem scanMembers_eq (fuel : ℕ) (text : Text) :
    scanMembers scan fuel text = scanElements (scanMember scan) '}' fuel text := by
  induction fuel generalizing text with
  | zero => rfl
  | succ fuel ih =>
    rw [scanMembers, scanElements]
    refine bind_congr fun scanned => ?_
    split
    · rename_i isRest
      rw [isRest]
      rfl
    · rename_i isRest
      rw [isRest, ih]
      rfl
    · rename_i notClosing notComma
      split
      · rfl
      · rename_i char rest isRest
        rw [if_neg, if_neg]
        · rintro rfl
          exact notComma _ isRest
        · rintro rfl
          exact notClosing _ isRest

def scanBracketed {α β : Type} (element : Text → Except LoadsError (α × Text)) (closing : Char)
    (make : List α → β) (text : Text) : Except LoadsError (β × Text) :=
  match skipSpace text with
  | [] => .error .jsonDecodeError
  | char :: rest =>
    if char = closing then .ok (make [], rest)
    else (scanElements element closing (char :: rest).length (char :: rest)).map fun elements =>
      (make elements.1, elements.2)

theorem scanArray_eq (text : Text) :
    scanArray scan text = scanBracketed scan ']' JsonValue.array text := by
  rw [scanArray, scanBracketed]
  split
  · rename_i isRest
    rw [isRest]
    rfl
  · rename_i rest notClosing
    cases isRest : skipSpace text with
    | nil => rfl
    | cons char rest =>
      rw [scanItems_eq]
      refine (if_neg ?_).symm
      rintro rfl
      exact notClosing rest isRest

theorem scanObject_eq (text : Text) :
    scanObject scan text =
      scanBracketed (scanMember scan) '}' (fun members => .object (dictOf members)) text := by
  rw [scanObject, scanBracketed]
  split
  · rename_i isRest
    rw [isRest]
    rfl
  · rename_i rest notClosing
    cases isRest : skipSpace text with
    | nil => rfl
    | cons char rest =>
      rw [scanMembers_eq]
      refine (if_neg ?_).symm
      rintro rfl
      exact notClosing rest isRest

end Containers

/-! ## Values -/

def jsonWords : List (Text × JsonValue) :=
  [("null".toList, .null), ("true".toList, .bool true), ("false".toList, .bool false),
    ("NaN".toList, .number "NaN".toList), ("Infinity".toList, .number "Infinity".toList),
    ("-Infinity".toList, .number "-Infinity".toList)]

/-- A word that is a value, or a number. -/
def scanScalar (text : Text) : Except LoadsError (JsonValue × Text) :=
  match jsonWords.find? fun word => word.1.isPrefixOf text with
  | some word => .ok (word.2, text.drop word.1.length)
  | none => scanNumber text

/-- A value, of which arrays and objects are entered as long as there is a scan for what is in
them. -/
def scanValue (enter : Option (Text → Except LoadsError (JsonValue × Text))) (text : Text) :
    Except LoadsError (JsonValue × Text) :=
  match text with
  | '"' :: rest => (scanString rest).map fun scanned => (.string scanned.1, scanned.2)
  | '[' :: rest =>
    match enter with
    | none => .error .recursionError
    | some scan => scanArray scan rest
  | '{' :: rest =>
    match enter with
    | none => .error .recursionError
    | some scan => scanObject scan rest
  | _ => scanScalar text

/-- A value that is nested no deeper than a limit. -/
def scanOnce : ℕ → Text → Except LoadsError (JsonValue × Text)
  | 0 => scanValue none
  | limit + 1 => scanValue (some (scanOnce limit))

/-- Decode a JSON text. A byte order mark is not read. -/
def loads (limit : ℕ) (text : Text) : Except LoadsError JsonValue :=
  if text.head? = some '\uFEFF' then .error .jsonDecodeError
  else do
    let scanned ← scanOnce limit (skipSpace text)
    if skipSpace scanned.2 = [] then .ok scanned.1 else .error .jsonDecodeError

/-! ## Inside and outside of strings -/

/-- Whether a place in a text is outside of strings, inside one, or behind a backslash in one. -/
inductive Mode where
  | outside
  | inside
  | escaped
  deriving DecidableEq, Repr

/-- The next place, where the characters outside of strings are those of an alphabet. -/
def Mode.step (plain : Char → Bool) : Mode → Char → Option Mode
  | .outside, char => if char = '"' then some .inside else if plain char then some .outside else none
  | .inside, char =>
    if char = '"' then some .outside else if char = '\\' then some .escaped else some .inside
  | .escaped, _ => some .inside

def Mode.run (plain : Char → Bool) (mode : Mode) (text : Text) : Option Mode :=
  text.foldlM (Mode.step plain) mode

section Modes

variable {plain : Char → Bool}

theorem run_cons (mode : Mode) (char : Char) (rest : Text) :
    mode.run plain (char :: rest) = (mode.step plain char).bind fun next => next.run plain rest :=
  rfl

variable {mode last : Mode}

theorem run_append_eq_some {first rest : Text} :
    mode.run plain (first ++ rest) = some last ↔
      ∃ middle, mode.run plain first = some middle ∧ middle.run plain rest = some last := by
  rw [Mode.run, foldlM_append]
  exact Option.bind_eq_some_iff

variable {text : Text}

/-- Outside of strings, the characters of the alphabet but quotes lead nowhere. -/
theorem run_plain (unquoted : ∀ char ∈ text, char ≠ '"' ∧ plain char = true) :
    Mode.outside.run plain text = some .outside := by
  induction text with
  | nil => rfl
  | cons char rest ih =>
    obtain ⟨notQuote, isPlain⟩ := unquoted char mem_cons_self
    have here : Mode.outside.step plain char = some .outside := by
      rw [Mode.step, if_neg notQuote, if_pos isPlain]
    rw [run_cons, here]
    exact ih fun other isOther => unquoted other (mem_cons_of_mem _ isOther)

/-- Inside a string, characters but quotes and backslashes lead nowhere. -/
theorem run_inside (unquoted : ∀ char ∈ text, char ≠ '"' ∧ char ≠ '\\') :
    Mode.inside.run plain text = some .inside := by
  induction text with
  | nil => rfl
  | cons char rest ih =>
    obtain ⟨notQuote, notEscape⟩ := unquoted char mem_cons_self
    have here : Mode.inside.step plain char = some .inside := by
      rw [Mode.step, if_neg notQuote, if_neg notEscape]
    rw [run_cons, here]
    exact ih fun other isOther => unquoted other (mem_cons_of_mem _ isOther)

/-- Inside a string, a backslash takes the next character with it. -/
theorem run_escape (char : Char) : Mode.inside.run plain ['\\', char] = some .inside := by
  have begins : Mode.inside.step plain '\\' = some .escaped := rfl
  rw [run_cons, begins]
  rfl

/-- Inside a string, a text without quotes and backslashes ends inside it, even behind a
backslash. -/
theorem run_of_ne_outside (within : mode ≠ .outside) (some : text ≠ [])
    (unquoted : ∀ char ∈ text, char ≠ '"' ∧ char ≠ '\\') :
    mode.run plain text = Option.some .inside := by
  cases mode with
  | outside => exact absurd rfl within
  | inside => exact run_inside unquoted
  | escaped =>
    cases text with
    | nil => exact absurd rfl some
    | cons char rest =>
      rw [run_cons]
      exact run_inside fun other isOther => unquoted other (mem_cons_of_mem _ isOther)

/-- A reading is one with a larger alphabet, too. -/
theorem run_mono {other : Char → Bool} (le : ∀ char, plain char = true → other char = true)
    (run : mode.run plain text = some last) : mode.run other text = some last := by
  induction text generalizing mode with
  | nil => exact run
  | cons char rest ih =>
    rw [run_cons] at run ⊢
    obtain ⟨next, isNext, run⟩ := Option.bind_eq_some_iff.mp run
    have same : mode.step other char = some next := by
      cases mode with
      | outside =>
        rw [Mode.step] at isNext ⊢
        split at isNext
        · rename_i quote
          rw [if_pos quote, isNext]
        · split at isNext
          · rename_i notQuote isPlain
            rw [if_neg notQuote, if_pos (le char isPlain), isNext]
          · cases isNext
      | inside => exact isNext
      | escaped => exact isNext
    rw [same]
    exact ih run

/-- Two readings of one text that never agree on what is inside a string have no other
characters outside of strings than those of their alphabets. -/
theorem run_opposite {other : Char → Bool} {last' : Mode}
    (inside : Mode.inside.run plain text = some last)
    (outside : Mode.outside.run other text = some last') (unescaped : plain '\\' = false)
    (otherUnescaped : other '\\' = false) :
    ∀ char ∈ text, char = '"' ∨ plain char = true ∨ other char = true := by
  induction text generalizing plain other last last' with
  | nil => exact nofun
  | cons first rest ih =>
    rw [run_cons] at inside outside
    by_cases quote : first = '"'
    · -- A quote ends the string of one reading and begins one of the other.
      simp only [Mode.step, if_pos quote, Option.bind_some] at inside outside
      intro char isChar
      rcases mem_cons.mp isChar with rfl | isLater
      · exact .inl quote
      · rcases ih outside inside otherUnescaped unescaped char isLater with
          isQuote | isOther | isPlain
        · exact .inl isQuote
        · exact .inr (.inr isOther)
        · exact .inr (.inl isPlain)
    · simp only [Mode.step, if_neg quote] at inside outside
      cases isOther : other first with
      | false => simp [isOther] at outside
      | true =>
        have notEscape : first ≠ '\\' := by
          rintro rfl
          rw [otherUnescaped] at isOther
          cases isOther
        simp only [if_neg notEscape, Option.bind_some] at inside
        simp only [isOther, if_pos, Option.bind_some] at outside
        intro char isChar
        rcases mem_cons.mp isChar with rfl | isLater
        · exact .inr (.inr isOther)
        · exact ih inside outside unescaped otherUnescaped char isLater

end Modes

/-! ## What a scan uses -/

/-- The characters outside of the strings of a JSON text, but for quotes. -/
def isPlain (char : Char) : Bool :=
  "truefalsenlINfity{}[]:,+-.0123456789E \t\n\r".toList.contains char

/-- A part of a text that begins and ends outside of strings, up to what is left of it. -/
def Spells (text rest : Text) : Prop :=
  ∃ used, text = used ++ rest ∧ Mode.outside.run isPlain used = some .outside

theorem Spells.refl (text : Text) : Spells text text := ⟨[], rfl, rfl⟩

variable {text rest : Text}

theorem Spells.trans {middle : Text} (first : Spells text middle) (second : Spells middle rest) :
    Spells text rest := by
  obtain ⟨used, rfl, run⟩ := first
  obtain ⟨more, rfl, runMore⟩ := second
  exact ⟨used ++ more, (append_assoc _ _ _).symm, run_append_eq_some.mpr ⟨_, run, runMore⟩⟩

variable {used : Text}

/-- A part without quotes. -/
theorem spells_plain (plain : ∀ char ∈ used, isPlain char = true) : Spells (used ++ rest) rest := by
  refine ⟨used, rfl, run_plain fun char isChar => ⟨?_, plain char isChar⟩⟩
  rintro rfl
  have notPlain : isPlain '"' = false := by decide
  rw [plain _ isChar] at notPlain
  cases notPlain

theorem spells_cons {char : Char} (plain : isPlain char = true) : Spells (char :: rest) rest := by
  have one : ∀ other ∈ [char], isPlain other = true := by
    intro other isOther
    rw [mem_singleton.mp isOther]
    exact plain
  exact spells_plain one

/-- Characters of one kind that is plain. -/
theorem spells_dropWhile {kind : Char → Bool} (plain : ∀ char, kind char = true → isPlain char = true)
    (text : Text) : Spells text (text.dropWhile kind) := by
  have used : ∀ char ∈ text.takeWhile kind, isPlain char = true := by
    intro char isChar
    exact plain char (mem_takeWhile_imp isChar)
  have spells : Spells (text.takeWhile kind ++ text.dropWhile kind) (text.dropWhile kind) :=
    spells_plain used
  rwa [takeWhile_append_dropWhile] at spells

theorem isPlain_of_isJsonSpace (char : Char) (space : isJsonSpace char = true) :
    isPlain char = true := by
  simp only [isJsonSpace, Bool.or_eq_true, decide_eq_true_eq] at space
  rcases space with ((rfl | rfl) | rfl) | rfl <;> decide

theorem isPlain_of_isJsonDigit (char : Char) (digit : isJsonDigit char = true) :
    isPlain char = true := by
  have code : ∀ number, 48 ≤ number → number ≤ 57 → isPlain (Char.ofNat number) = true := by
    intro number low high
    interval_cases number <;> decide
  simp only [isJsonDigit, decide_eq_true_eq] at digit
  rw [← Char.ofNat_toNat char]
  exact code _ (UInt32.le_iff_toNat_le.mp digit.1) (UInt32.le_iff_toNat_le.mp digit.2)

theorem spells_skipSpace (text : Text) : Spells text (skipSpace text) :=
  spells_dropWhile isPlain_of_isJsonSpace text

theorem ne_of_hexValue {char : Char} {value : ℕ} (isHex : hexValue char = some value) :
    char ≠ '"' ∧ char ≠ '\\' := by
  constructor
  · rintro rfl
    cases isHex
  · rintro rfl
    cases isHex

/-- Every code point of a string is that of a character that was used, unless there is an
escape. -/
def Spelled (used : Text) (value : CodePoints) : Prop :=
  ∀ code ∈ value, code < 0x10000 → (∃ char ∈ used, char.toNat = code) ∨ '\\' ∈ used

variable {value : CodePoints}

theorem Spelled.cons (spelled : Spelled used value) (char : Char) :
    Spelled (char :: used) (char.toNat :: value) := by
  intro code isCode small
  rcases mem_cons.mp isCode with rfl | isLater
  · exact .inl ⟨char, mem_cons_self, rfl⟩
  · rcases spelled code isLater small with ⟨other, isOther, same⟩ | escapes
    · exact .inl ⟨other, mem_cons_of_mem _ isOther, same⟩
    · exact .inr (mem_cons_of_mem _ escapes)

theorem Spelled.mono {more : Text} (spelled : Spelled used value)
    (contained : ∀ char ∈ used, char ∈ more) : Spelled more value := by
  intro code isCode small
  rcases spelled code isCode small with ⟨char, isChar, same⟩ | escapes
  · exact .inl ⟨char, contained char isChar, same⟩
  · exact .inr (contained _ escapes)

theorem Spelled.of_escape (escapes : '\\' ∈ used) (value : CodePoints) :
    Spelled used value := fun _ _ _ => .inr escapes

/-- What is left of a string ends at its quote. -/
theorem scanBody_spells (isBody : scanBody text = .ok (value, rest)) :
    ∃ used, text = used ++ rest ∧ Mode.inside.run isPlain used = some .outside ∧
      Spelled used value := by
  fun_induction scanBody text generalizing value with
  | case1 => cases isBody
  | case2 rest' =>
    cases isBody
    exact ⟨['"'], rfl, rfl, nofun⟩
  | case3 first second third fourth rest' noCode => cases isBody
  | case4 first second third fourth rest' code isCode ih =>
    obtain ⟨⟨value', rest''⟩, isInner, same⟩ := map_eq_ok.mp isBody
    cases same
    obtain ⟨used, rfl, run, -⟩ := ih isInner
    refine ⟨['\\', 'u'] ++ ([first, second, third, fourth] ++ used), rfl, ?_,
      .of_escape mem_cons_self _⟩
    have digits : ∀ char ∈ [first, second, third, fourth], char ≠ '"' ∧ char ≠ '\\' := by
      simp only [hexCode, Option.bind_eq_bind, Option.bind_eq_some_iff] at isCode
      obtain ⟨_, isFirst, _, isSecond, _, isThird, _, isFourth, -⟩ := isCode
      simp only [forall_mem_cons]
      exact ⟨ne_of_hexValue isFirst, ne_of_hexValue isSecond, ne_of_hexValue isThird,
        ne_of_hexValue isFourth, nofun⟩
    exact run_append_eq_some.mpr ⟨.inside, run_escape 'u', run_append_eq_some.mpr
      ⟨.inside, run_inside digits, run⟩⟩
  | case5 escape rest' noUnicode noCode => cases isBody
  | case6 escape rest' noUnicode code isCode ih =>
    obtain ⟨⟨value', rest''⟩, isInner, same⟩ := map_eq_ok.mp isBody
    cases same
    obtain ⟨used, rfl, run, -⟩ := ih isInner
    exact ⟨['\\', escape] ++ used, rfl, run_append_eq_some.mpr ⟨.inside, run_escape escape, run⟩,
      .of_escape mem_cons_self _⟩
  | case7 char rest' notQuote noUnicode noEscape isControl => cases isBody
  | case8 char rest' notQuote noUnicode noEscape isControl ih =>
    obtain ⟨⟨value', rest''⟩, isInner, same⟩ := map_eq_ok.mp isBody
    cases same
    have notEscape : char ≠ '\\' := by
      rintro rfl
      cases rest' with
      | nil => cases isInner
      | cons escape rest' => exact noEscape escape rest' rfl rfl
    obtain ⟨used, rfl, run, spelled⟩ := ih isInner
    refine ⟨char :: used, rfl, ?_, spelled.cons char⟩
    rw [run_cons, Mode.step, if_neg notQuote, if_neg notEscape]
    exact run

/-- A code point below those of pairs was there before pairs were joined. -/
theorem mem_of_mem_joinSurrogates {code : ℕ} (isCode : code ∈ joinSurrogates value)
    (small : code < 0x10000) : code ∈ value := by
  fun_induction joinSurrogates value with
  | case1 high low rest isPair ih =>
    rw [mem_cons] at isCode
    rcases isCode with isJoined | isLater
    · omega
    · exact mem_cons_of_mem _ (mem_cons_of_mem _ (ih isLater))
  | case2 high low rest notPair ih =>
    rcases mem_cons.mp isCode with rfl | isLater
    · exact mem_cons_self
    · exact mem_cons_of_mem _ (ih isLater)
  | case3 => exact isCode

theorem scanString_spells (isString : scanString text = .ok (value, rest)) :
    ∃ used, text = used ++ rest ∧ Mode.inside.run isPlain used = some .outside ∧
      Spelled used value := by
  obtain ⟨⟨body, rest'⟩, isBody, same⟩ := map_eq_ok.mp isString
  cases same
  obtain ⟨used, isText, run, spelled⟩ := scanBody_spells isBody
  exact ⟨used, isText, run, fun code isCode small =>
    spelled code (mem_of_mem_joinSurrogates isCode small) small⟩

theorem spells_string (isString : scanString text = .ok (value, rest)) :
    Spells ('"' :: text) rest := by
  obtain ⟨used, rfl, run, -⟩ := scanString_spells isString
  exact ⟨'"' :: used, rfl, run⟩

/-! ## Numbers and words -/

theorem spells_scanSign {signs : List Char} (plain : ∀ sign ∈ signs, isPlain sign = true)
    (text : Text) : Spells text (scanSign signs text).2 := by
  unfold scanSign
  split
  · rename_i sign rest
    split
    · rename_i isSign
      exact spells_cons (plain sign isSign)
    · exact .refl _
  · exact .refl _

theorem spells_scanFraction (text : Text) : Spells text (scanFraction text).2 := by
  unfold scanFraction
  split
  · split
    · exact .refl _
    · exact (spells_cons (by decide)).trans (spells_dropWhile isPlain_of_isJsonDigit _)
  · exact .refl _

theorem spells_scanExponent (text : Text) : Spells text (scanExponent text).2 := by
  unfold scanExponent
  split
  · exact .refl _
  · rename_i letter rest
    dsimp only
    split
    · rename_i isExponent
      have isLetter : isPlain letter = true := by
        rcases isExponent.1 with rfl | rfl <;> decide
      have signs : ∀ sign ∈ ['+', '-'], isPlain sign = true := by decide
      exact (spells_cons isLetter).trans
        ((spells_scanSign signs rest).trans (spells_dropWhile isPlain_of_isJsonDigit _))
    · exact .refl _

theorem spells_scanInteger {digits : Text} (isInteger : scanInteger text = some (digits, rest)) :
    Spells text rest := by
  unfold scanInteger at isInteger
  split at isInteger
  · cases isInteger
    exact spells_cons (by decide)
  · split at isInteger
    · cases isInteger
    · cases isInteger
      exact spells_dropWhile isPlain_of_isJsonDigit _

theorem spells_scanNumber {value : JsonValue} (isNumber : scanNumber text = .ok (value, rest)) :
    Spells text rest := by
  rw [scanNumber] at isNumber
  dsimp only at isNumber
  have signs : ∀ sign ∈ ['-'], isPlain sign = true := by decide
  have signed := spells_scanSign signs text
  cases isInteger : scanInteger (scanSign ['-'] text).2 with
  | none => simp [isInteger] at isNumber
  | some integer =>
    simp only [isInteger] at isNumber
    split at isNumber
    · cases isNumber
    · cases isNumber
      exact signed.trans ((spells_scanInteger isInteger).trans
        ((spells_scanFraction _).trans (spells_scanExponent _)))

theorem spells_scanScalar {value : JsonValue} (isScalar : scanScalar text = .ok (value, rest)) :
    Spells text rest := by
  rw [scanScalar] at isScalar
  split at isScalar
  · rename_i word isWord
    cases isScalar
    have begins : word.1.isPrefixOf text = true := by
      have found := find?_some isWord
      exact found
    have isPrefix : word.1 <+: text := List.isPrefixOf_iff_prefix.mp begins
    have isPlainWord : ∀ word ∈ jsonWords, ∀ char ∈ word.1, isPlain char = true := by decide
    obtain ⟨rest, rfl⟩ := isPrefix
    rw [drop_left]
    exact spells_plain (isPlainWord word (mem_of_find?_eq_some isWord))
  · exact spells_scanNumber isScalar

/-! ## Arrays, objects and values -/

/-- A scan that uses parts of texts that begin and end outside of strings. -/
def ScansParts (scan : Text → Except LoadsError (JsonValue × Text)) : Prop :=
  ∀ text rest value, scan text = .ok (value, rest) → Spells text rest

section Parts

variable {scan : Text → Except LoadsError (JsonValue × Text)}

variable {text rest : Text}

/-- Blanks and one character after them. -/
theorem spells_skipSpace_cons {char : Char} (isNext : skipSpace text = char :: rest)
    (plain : isPlain char = true) : Spells text rest := by
  have skipped := spells_skipSpace text
  rw [isNext] at skipped
  exact skipped.trans (spells_cons plain)

theorem spells_scanItems (parts : ScansParts scan) {fuel : ℕ} {items : List JsonValue}
    (isItems : scanItems scan fuel text = .ok (items, rest)) : Spells text rest := by
  induction fuel generalizing text items with
  | zero => cases isItems
  | succ fuel ih =>
    obtain ⟨⟨value, after⟩, isValue, isRest⟩ := bind_eq_ok.mp isItems
    have first := parts _ _ _ isValue
    dsimp only at isRest
    split at isRest
    · rename_i after' isNext
      cases isRest
      exact first.trans (spells_skipSpace_cons isNext (by decide))
    · rename_i after' isNext
      obtain ⟨⟨items', rest'⟩, isLater, same⟩ := map_eq_ok.mp isRest
      cases same
      exact first.trans ((spells_skipSpace_cons isNext (by decide)).trans
        ((spells_skipSpace after').trans (ih isLater)))
    · cases isRest

/-- A member uses a part of the text, which has the characters of its key. -/
theorem spells_scanMember (parts : ScansParts scan) {member : CodePoints × JsonValue}
    (isMember : scanMember scan text = .ok (member, rest)) :
    ∃ used, text = used ++ rest ∧ Mode.outside.run isPlain used = some .outside ∧
      Spelled used member.1 := by
  unfold scanMember at isMember
  split at isMember
  · rename_i text'
    obtain ⟨⟨key, after⟩, isKey, isRest⟩ := bind_eq_ok.mp isMember
    obtain ⟨used, rfl, run, spelled⟩ := scanString_spells isKey
    dsimp only at isRest
    split at isRest
    · rename_i after' isColon
      obtain ⟨⟨value, rest'⟩, isValue, same⟩ := map_eq_ok.mp isRest
      cases same
      obtain ⟨more, rfl, runMore⟩ := (spells_skipSpace_cons isColon (by decide)).trans
        ((spells_skipSpace after').trans (parts _ _ _ isValue))
      have runAll : Mode.outside.run isPlain (('"' :: used) ++ more) = some .outside :=
        run_append_eq_some.mpr ⟨.outside, run, runMore⟩
      refine ⟨('"' :: used) ++ more, by simp, runAll, spelled.mono fun char isChar => ?_⟩
      exact mem_append_left _ (mem_cons_of_mem _ isChar)
    · cases isRest
  · cases isMember

variable {members : List (CodePoints × JsonValue)}

theorem spells_scanMembers (parts : ScansParts scan) {fuel : ℕ}
    (isMembers : scanMembers scan fuel text = .ok (members, rest)) :
    ∃ used, text = used ++ rest ∧ Mode.outside.run isPlain used = some .outside ∧
      ∀ member ∈ members, Spelled used member.1 := by
  induction fuel generalizing text members with
  | zero => cases isMembers
  | succ fuel ih =>
    obtain ⟨⟨member, after⟩, isMember, isRest⟩ := bind_eq_ok.mp isMembers
    obtain ⟨used, rfl, run, spelled⟩ := spells_scanMember parts isMember
    dsimp only at isRest
    split at isRest
    · rename_i after' isNext
      cases isRest
      obtain ⟨more, rfl, runMore⟩ := spells_skipSpace_cons isNext (by decide)
      refine ⟨used ++ more, (append_assoc _ _ _).symm,
        run_append_eq_some.mpr ⟨_, run, runMore⟩, fun other isOther => ?_⟩
      rw [mem_singleton.mp isOther]
      exact spelled.mono fun char isChar => mem_append_left _ isChar
    · rename_i after' isNext
      obtain ⟨⟨members', rest'⟩, isLater, same⟩ := map_eq_ok.mp isRest
      cases same
      obtain ⟨between, rfl, runBetween⟩ := (spells_skipSpace_cons isNext (by decide)).trans
        (spells_skipSpace after')
      obtain ⟨more, isMore, runMore, spelledMore⟩ := ih isLater
      rw [isMore]
      refine ⟨used ++ (between ++ more), by simp, run_append_eq_some.mpr
        ⟨_, run, run_append_eq_some.mpr ⟨_, runBetween, runMore⟩⟩, fun other isOther => ?_⟩
      rcases mem_cons.mp isOther with rfl | isLaterMember
      · exact spelled.mono fun char isChar => mem_append_left _ isChar
      · exact (spelledMore other isLaterMember).mono fun char isChar =>
          mem_append_right _ (mem_append_right _ isChar)
    · cases isRest

variable {key : CodePoints} {value : JsonValue}

theorem mem_keys_setMember {other : CodePoints} :
    other ∈ (setMember members key value).map Prod.fst ↔
      other ∈ members.map Prod.fst ∨ other = key := by
  rw [setMember]
  split
  · rename_i isKey
    have same : (members.map fun member => if member.1 = key then (key, value) else member).map
        Prod.fst = members.map Prod.fst := by
      rw [map_map]
      apply map_congr_left
      intro member _
      rw [Function.comp_apply]
      split
      · rename_i isMember
        exact isMember.symm
      · rfl
    rw [same]
    constructor
    · exact .inl
    · rintro (isOther | rfl)
      · exact isOther
      · exact isKey
  · simp

theorem getMember_setMember_of_ne {other : CodePoints} (differs : other ≠ key) (value : JsonValue) :
    getMember (setMember members key value) other = getMember members other := by
  have kept : ∀ member : CodePoints × JsonValue,
      (if member.1 = key then (key, value) else member).1 = other ↔ member.1 = other := by
    intro member
    split
    · rename_i isKey
      simp [isKey, differs.symm]
    · rfl
  rw [setMember]
  split
  · rw [getMember, getMember, find?_map]
    simp only [Function.comp_def, kept]
    cases found : members.find? fun member => decide (member.1 = other) with
    | none => rfl
    | some holder =>
      have isOther : holder.1 = other := by simpa using find?_some found
      simp [isOther, differs]
  · simp [getMember, find?_append, differs.symm]

/-- The keys of an object are those of its members. -/
theorem mem_keys_dictOf {pairs : List (CodePoints × JsonValue)} :
    key ∈ (dictOf pairs).map Prod.fst ↔ key ∈ pairs.map Prod.fst := by
  have collected : ∀ members : List (CodePoints × JsonValue),
      key ∈ (pairs.foldl (fun members pair => setMember members pair.1 pair.2) members).map
        Prod.fst ↔ key ∈ members.map Prod.fst ∨ key ∈ pairs.map Prod.fst := by
    induction pairs with
    | nil => simp
    | cons pair pairs ih =>
      intro members
      rw [foldl_cons, ih, mem_keys_setMember, map_cons, mem_cons, or_assoc]
  rw [dictOf, collected]
  simp

theorem spells_scanArray (parts : ScansParts scan)
    (isArray : scanArray scan text = .ok (value, rest)) : Spells text rest := by
  unfold scanArray at isArray
  split at isArray
  · rename_i after isNext
    cases isArray
    exact spells_skipSpace_cons isNext (by decide)
  · obtain ⟨⟨items, rest'⟩, isItems, same⟩ := map_eq_ok.mp isArray
    cases same
    exact (spells_skipSpace text).trans (spells_scanItems parts isItems)

/-- An object uses a part of the text, which has the characters of its keys. -/
theorem spells_scanObject (parts : ScansParts scan)
    (isObject : scanObject scan text = .ok (value, rest)) :
    ∃ used members, text = used ++ rest ∧ Mode.outside.run isPlain used = some .outside ∧
      value = .object members ∧ ∀ key ∈ members.map Prod.fst, Spelled used key := by
  unfold scanObject at isObject
  split at isObject
  · rename_i after isNext
    cases isObject
    obtain ⟨used, isText, run⟩ := spells_skipSpace_cons isNext (by decide)
    exact ⟨used, [], isText, run, rfl, nofun⟩
  · obtain ⟨⟨members, rest'⟩, isMembers, same⟩ := map_eq_ok.mp isObject
    cases same
    obtain ⟨skipped, isSkipped, runSkipped⟩ := spells_skipSpace text
    obtain ⟨used, isUsed, run, spelled⟩ := spells_scanMembers parts isMembers
    refine ⟨skipped ++ used, dictOf members, ?_, run_append_eq_some.mpr ⟨_, runSkipped, run⟩, rfl,
      fun key isKey => ?_⟩
    · rw [append_assoc, ← isUsed]
      exact isSkipped
    · obtain ⟨member, isMember, rfl⟩ := mem_map.mp (mem_keys_dictOf.mp isKey)
      exact (spelled member isMember).mono fun char isChar => mem_append_right _ isChar

end Parts

/-- What a value uses begins and ends outside of strings, and an object has the characters of
its keys. -/
def SpellsValues (scan : Text → Except LoadsError (JsonValue × Text)) : Prop :=
  ∀ text rest value, scan text = .ok (value, rest) →
    ∃ used, text = used ++ rest ∧ Mode.outside.run isPlain used = some .outside ∧
      ∀ members, value = .object members → ∀ key ∈ members.map Prod.fst, Spelled used key

theorem SpellsValues.parts {scan : Text → Except LoadsError (JsonValue × Text)}
    (spells : SpellsValues scan) : ScansParts scan := by
  intro text rest value isValue
  obtain ⟨used, isText, run, -⟩ := spells _ _ _ isValue
  exact ⟨used, isText, run⟩

theorem scanNumber_eq_number {value : JsonValue} (isNumber : scanNumber text = .ok (value, rest)) :
    ∃ literal, value = .number literal := by
  rw [scanNumber] at isNumber
  dsimp only at isNumber
  split at isNumber
  · cases isNumber
  · split at isNumber
    · cases isNumber
    · cases isNumber
      exact ⟨_, rfl⟩

theorem scanArray_eq_array {scan : Text → Except LoadsError (JsonValue × Text)} {value : JsonValue}
    (isArray : scanArray scan text = .ok (value, rest)) : ∃ items, value = .array items := by
  unfold scanArray at isArray
  split at isArray
  · cases isArray
    exact ⟨_, rfl⟩
  · obtain ⟨_, -, same⟩ := map_eq_ok.mp isArray
    cases same
    exact ⟨_, rfl⟩

theorem scanScalar_ne_object {value : JsonValue} (isScalar : scanScalar text = .ok (value, rest))
    (members : List (CodePoints × JsonValue)) : value ≠ .object members := by
  rw [scanScalar] at isScalar
  split at isScalar
  · rename_i word isWord
    cases isScalar
    have member := mem_of_find?_eq_some isWord
    intro isObject
    simp only [jsonWords, mem_cons, not_mem_nil, or_false] at member
    rcases member with rfl | rfl | rfl | rfl | rfl | rfl <;> cases isObject
  · obtain ⟨literal, rfl⟩ := scanNumber_eq_number isScalar
    intro isObject
    cases isObject

theorem spellsValues_scanValue {enter : Option (Text → Except LoadsError (JsonValue × Text))}
    (spells : ∀ scan, enter = some scan → SpellsValues scan) :
    SpellsValues (scanValue enter) := by
  intro text rest value isValue
  unfold scanValue at isValue
  split at isValue
  · obtain ⟨⟨string, rest'⟩, isString, same⟩ := map_eq_ok.mp isValue
    cases same
    obtain ⟨used, isText, run⟩ := spells_string isString
    exact ⟨used, isText, run, nofun⟩
  · split at isValue
    · cases isValue
    · rename_i scan
      obtain ⟨items, rfl⟩ := scanArray_eq_array isValue
      have bracket : isPlain '[' = true := by decide
      obtain ⟨used, isText, run⟩ := (spells_cons bracket).trans
        (spells_scanArray (spells scan rfl).parts isValue)
      exact ⟨used, isText, run, nofun⟩
  · split at isValue
    · cases isValue
    · rename_i scan
      obtain ⟨used, members, isText, run, rfl, spelled⟩ :=
        spells_scanObject (spells scan rfl).parts isValue
      have brace : Mode.outside.run isPlain ['{'] = some .outside := by decide
      refine ⟨['{'] ++ used, by simp [isText], run_append_eq_some.mpr ⟨_, brace, run⟩,
        fun members' isObject => ?_⟩
      cases isObject
      intro key isKey
      exact (spelled key isKey).mono fun char isChar => mem_append_right _ isChar
  · obtain ⟨used, isText, run⟩ := spells_scanScalar isValue
    exact ⟨used, isText, run, fun members isObject =>
      absurd isObject (scanScalar_ne_object isValue members)⟩

/-- A scan for values at any limit uses parts that begin and end outside of strings. -/
theorem spellsValues_scanOnce (limit : ℕ) : SpellsValues (scanOnce limit) := by
  induction limit with
  | zero =>
    apply spellsValues_scanValue
    intro scan isScan
    cases isScan
  | succ limit ih =>
    apply spellsValues_scanValue
    intro scan isScan
    rw [← Option.some.inj isScan]
    exact ih

/-- A JSON text begins and ends outside of strings, and that of an object has the characters
of its keys. -/
theorem loads_spells {limit : ℕ} {value : JsonValue} (isJson : loads limit text = .ok value) :
    Mode.outside.run isPlain text = some .outside ∧
      ∀ members, value = .object members → ∀ key ∈ members.map Prod.fst, Spelled text key := by
  rw [loads] at isJson
  split at isJson
  · cases isJson
  · obtain ⟨⟨value', rest⟩, isValue, isEnd⟩ := bind_eq_ok.mp isJson
    dsimp only at isEnd
    split at isEnd
    · rename_i ended
      cases isEnd
      obtain ⟨skipped, isSkipped, runSkipped⟩ := spells_skipSpace text
      obtain ⟨used, isUsed, run, spelled⟩ := spellsValues_scanOnce limit _ _ _ isValue
      obtain ⟨space, isSpace, runSpace⟩ := spells_skipSpace rest
      rw [ended, append_nil] at isSpace
      rw [isUsed, isSpace] at isSkipped
      rw [isSkipped]
      refine ⟨run_append_eq_some.mpr ⟨_, runSkipped, run_append_eq_some.mpr
        ⟨_, run, runSpace⟩⟩, fun members isObject key isKey => ?_⟩
      apply (spelled members isObject key isKey).mono
      intro char isChar
      exact mem_append_right _ (mem_append_left _ isChar)
    · cases isEnd

/-- There is no value in nothing. -/
theorem scanOnce_nil (limit : ℕ) : scanOnce limit [] = .error .jsonDecodeError := by
  cases limit <;> rfl

end Geobench.Library
