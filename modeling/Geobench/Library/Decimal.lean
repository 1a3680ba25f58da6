import Geobench.Library.Text

/-!
# Decimal numbers as texts

How a whole number is written, `strOf`, and how one is read, `intOf`. A reader takes blanks
around the number, one sign, the decimal digits of any script, zeros in front, and single
underscores between digits. Neither takes more than a fixed count of digits.

**`intOf_strOf`** reads a written number back, and **`exists_strOf`** says that a number
that was read can be written.
-/

namespace Geobench.Library

open List

/-- The decimal digits of all scripts. The digits of ASCII have the values that they spell. -/
structure Decimals where
  value : Char → Option ℕ
  value_lt : ∀ char digit, value char = some digit → digit < 10
  value_ascii : ∀ char, char.isDigit → value char = some (char.toNat - '0'.toNat)

/-- The digits of ASCII alone. -/
def asciiDecimals : Decimals where
  value char := if char.isDigit then some (char.toNat - '0'.toNat) else none
  value_lt char digit isValue := by
    split at isValue
    · rename_i isDigit
      rw [Char.isDigit_iff_toNat] at isDigit
      cases isValue
      have zero : '0'.toNat = 48 := rfl
      have nine : '9'.toNat = 57 := rfl
      omega
    · cases isValue
  value_ascii char isDigit := if_pos isDigit

/-- How many digits a number may have that is read or written. -/
def maxStrDigits : ℕ := 4300

/-- What may stand around a number. Of the blank characters these are not the four
separators of ASCII. -/
def isIntBlank (char : Char) : Bool :=
  isBlank char && !(28 ≤ char.toNat && char.toNat ≤ 31)

/-- The number of a row of digits, the first being the highest. -/
def digitsNumber (digits : List ℕ) : ℕ := digits.foldl (fun number digit => 10 * number + digit) 0

/-- A number without sign. Underscores stand between digits, one at a time. -/
def natOf (decimals : Decimals) (text : Text) : Option ℕ :=
  let groups := text.splitOn '_'
  if groups.any List.isEmpty then none
  else
    (groups.flatten.mapM decimals.value).bind fun digits =>
      if digits.length ≤ maxStrDigits then some (digitsNumber digits) else none

/-- `int(text)`. -/
def intOf (decimals : Decimals) (text : Text) : Option ℤ :=
  match strip isIntBlank text with
  | '-' :: digits => (natOf decimals digits).map fun number : ℕ => -(number : ℤ)
  | '+' :: digits => (natOf decimals digits).map fun number : ℕ => (number : ℤ)
  | digits => (natOf decimals digits).map fun number : ℕ => (number : ℤ)

/-- `str(number)`. -/
def strOf (number : ℤ) : Option Text :=
  let digits := Nat.toDigits 10 number.natAbs
  if digits.length ≤ maxStrDigits then some (if number < 0 then '-' :: digits else digits)
  else none

/-! ## Written numbers -/

variable {number : ℤ} {text : Text}

/-- A written number has digits, and a sign in front at most. -/
theorem strOf_eq_some_iff :
    strOf number = some text ↔
      (Nat.toDigits 10 number.natAbs).length ≤ maxStrDigits ∧
        text = if number < 0 then '-' :: Nat.toDigits 10 number.natAbs
          else Nat.toDigits 10 number.natAbs := by
  unfold strOf
  dsimp only
  split
  · rename_i short
    simp only [short, true_and, Option.some.injEq]
    exact comm
  · rename_i long
    simp [long]

variable {char : Char}

theorem isDigit_of_mem_decimal {number : ℕ} (isIn : char ∈ Nat.toDigits 10 number) : char.isDigit :=
  Nat.isDigit_of_mem_toDigits (by decide) (Nat.le_refl 10) isIn

theorem eq_minus_or_isDigit_of_strOf (isText : strOf number = some text) (isIn : char ∈ text) :
    char = '-' ∨ char.isDigit := by
  rw [(strOf_eq_some_iff.mp isText).2] at isIn
  split at isIn
  · exact (mem_cons.mp isIn).imp id isDigit_of_mem_decimal
  · exact .inr (isDigit_of_mem_decimal isIn)

theorem not_mem_strOf (isText : strOf number = some text) (notMinus : char ≠ '-')
    (notDigit : ¬ char.isDigit) : char ∉ text :=
  fun isIn => (eq_minus_or_isDigit_of_strOf isText isIn).elim notMinus notDigit

theorem not_isBlank_of_strOf (isText : strOf number = some text) (isIn : char ∈ text) :
    isBlank char = false := by
  rcases eq_minus_or_isDigit_of_strOf isText isIn with rfl | isDigit
  · decide
  · have range := Char.isDigit_iff_toNat.mp isDigit
    have zero : '0'.toNat = 48 := rfl
    have nine : '9'.toNat = 57 := rfl
    simp only [isBlank, isBlankCode, contains_eq_mem, mem_cons, not_mem_nil]
    simp
    omega

/-! ## Reading a number -/

theorem digitsNumber_map (digits : Text) :
    digitsNumber (digits.map fun char => char.toNat - '0'.toNat) = Nat.ofDigitChars 10 digits 0 := by
  rw [digitsNumber, foldl_map, Nat.ofDigitChars_eq_foldl]

variable (decimals : Decimals)

theorem mapM_value (digits : ∀ char ∈ text, char.isDigit) :
    text.mapM decimals.value = some (text.map fun char => char.toNat - '0'.toNat) := by
  induction text with
  | nil => rfl
  | cons char rest ih =>
    rw [forall_mem_cons] at digits
    simp [mapM_cons, decimals.value_ascii char digits.1, ih digits.2]

theorem natOf_toDigits {number : ℕ} (short : (Nat.toDigits 10 number).length ≤ maxStrDigits) :
    natOf decimals (Nat.toDigits 10 number) = some number := by
  have oneGroup : (Nat.toDigits 10 number).splitOn '_' = [Nat.toDigits 10 number] :=
    splitOn_eq_singleton Nat.underscore_not_in_toDigits
  have values : (Nat.toDigits 10 number).mapM decimals.value =
      some ((Nat.toDigits 10 number).map fun char => char.toNat - '0'.toNat) :=
    mapM_value decimals fun _ isIn => isDigit_of_mem_decimal isIn
  have notEmpty : (Nat.toDigits 10 number).isEmpty = false := by
    rw [isEmpty_eq_false_iff]
    exact Nat.toDigits_ne_nil
  rw [natOf, oneGroup]
  simp only [any_cons, notEmpty, any_nil, Bool.or_self, Bool.false_eq_true, if_false,
    flatten_cons, flatten_nil, append_nil, values, Option.bind_some,
    length_map, short, if_true, digitsNumber_map, Nat.ofDigitChars_ten_toDigits]

/-- A written number is read as itself. -/
theorem intOf_strOf (isText : strOf number = some text) : intOf decimals text = some number := by
  have stripped : strip isIntBlank text = text :=
    strip_eq_self fun char isIn => by rw [isIntBlank, not_isBlank_of_strOf isText isIn,
      Bool.false_and]
  obtain ⟨short, spelled⟩ := strOf_eq_some_iff.mp isText
  have isNat : natOf decimals (Nat.toDigits 10 number.natAbs) = some number.natAbs :=
    natOf_toDigits decimals short
  rw [intOf, stripped, spelled]
  by_cases negative : number < 0
  · rw [if_pos negative]
    simp only [isNat, Option.map_some, Option.some.injEq]
    omega
  · rw [if_neg negative]
    have unsigned : (natOf decimals (Nat.toDigits 10 number.natAbs)).map (fun n : ℕ => (n : ℤ)) =
        some number := by
      rw [isNat, Option.map_some, Option.some.injEq]
      omega
    -- the first character is a digit, so none of the two signs
    split
    · rename_i digits isCons
      have isDigit := isDigit_of_mem_decimal (isCons ▸ mem_cons_self)
      exact absurd isDigit (by decide)
    · rename_i digits isCons
      have isDigit := isDigit_of_mem_decimal (isCons ▸ mem_cons_self)
      exact absurd isDigit (by decide)
    · exact unsigned

/-- A number of some digits is below the first number of one digit more. -/
theorem digitsNumber_lt (digits : List ℕ) (small : ∀ digit ∈ digits, digit < 10) :
    digitsNumber digits < 10 ^ digits.length := by
  induction digits using List.reverseRecOn with
  | nil => exact Nat.one_pos
  | append_singleton digits digit ih =>
    have below := ih fun digit isIn => small digit (mem_append_left _ isIn)
    have last := small digit (by simp)
    rw [digitsNumber, foldl_concat, ← digitsNumber, length_append, length_singleton, Nat.pow_succ]
    omega

theorem values_lt {digits : List ℕ} (values : text.mapM decimals.value = some digits) :
    ∀ digit ∈ digits, digit < 10 := by
  induction text generalizing digits with
  | nil =>
    cases values
    exact fun digit isIn => absurd isIn not_mem_nil
  | cons char rest ih =>
    simp only [mapM_cons, Option.bind_eq_bind, Option.bind_eq_some_iff, Option.pure_def,
      Option.some.injEq] at values
    obtain ⟨first, isFirst, others, isRest, rfl⟩ := values
    exact forall_mem_cons.mpr ⟨decimals.value_lt char first isFirst, ih isRest⟩

theorem length_toDigits_of_natOf {number : ℕ} (isNumber : natOf decimals text = some number) :
    (Nat.toDigits 10 number).length ≤ maxStrDigits := by
  unfold natOf at isNumber
  dsimp only at isNumber
  split at isNumber
  · cases isNumber
  · obtain ⟨digits, values, isNumber⟩ := Option.bind_eq_some_iff.mp isNumber
    split at isNumber
    · rename_i short
      rw [Option.some.injEq] at isNumber
      rw [Nat.length_toDigits_le_iff (by decide) (by decide), ← isNumber]
      exact Nat.lt_of_lt_of_le (digitsNumber_lt digits (values_lt decimals values))
        (Nat.pow_le_pow_right (by decide) short)
    · cases isNumber

/-- A number that was read can be written. -/
theorem exists_strOf (isNumber : intOf decimals text = some number) :
    ∃ written, strOf number = some written := by
  obtain ⟨digits, magnitude⟩ : ∃ digits, natOf decimals digits = some number.natAbs := by
    unfold intOf at isNumber
    split at isNumber <;>
    · obtain ⟨magnitude, isMagnitude, rfl⟩ := Option.map_eq_some_iff.mp isNumber
      exact ⟨_, by rw [isMagnitude]; simp⟩
  exact ⟨_, strOf_eq_some_iff.mpr ⟨length_toDigits_of_natOf decimals magnitude, rfl⟩⟩

end Geobench.Library
