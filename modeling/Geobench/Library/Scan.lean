import Geobench.Library.Regex

/-!
# Leftmost scans

A text is cut where one of several patterns matches: `scan` goes from the left and takes the first
pattern that matches at a place. After a match without characters the next one at the same place
must have some.

A pattern is a `Matcher`, which sees the text before its place as well. Where patterns look around,
a piece that is cut out of its text may be matched by another pattern than in its text.
**`flatten_scan`**: the pieces make the text.
-/

namespace Geobench.Library

open List

variable {γ : Type}

/-! ## Matchers -/

/-- How many characters a pattern matches at a place of a text. -/
structure Matcher where
  matchAt : (mustAdvance : Bool) → (before after : Text) → Option ℕ
  le_length : ∀ mustAdvance before after count,
    matchAt mustAdvance before after = some count → count ≤ after.length
  pos_of_mustAdvance : ∀ before after count, matchAt true before after = some count → 0 < count

namespace Matcher

/-- `re.match(pattern, text)` -/
def isMatch (matcher : Matcher) (text : Text) : Bool := (matcher.matchAt false [] text).isSome

/-- A text that stands for itself. -/
def literal (letters : Text) : Matcher where
  matchAt mustAdvance _ after :=
    if letters <+: after ∧ (mustAdvance → letters ≠ []) then some letters.length else none
  le_length _ _ _ _ isMatch := by
    split at isMatch
    · rename_i both
      obtain rfl := Option.some.inj isMatch
      exact both.1.length_le
    · cases isMatch
  pos_of_mustAdvance _ _ _ isMatch := by
    split at isMatch
    · rename_i both
      obtain rfl := Option.some.inj isMatch
      exact length_pos_iff.mpr (both.2 rfl)
    · cases isMatch

/-- A regular expression that does not look around. -/
def ofRegex (regex : Regex) : Matcher where
  matchAt mustAdvance _ after :=
    ((regex.matchesAt after).find? fun found =>
      !mustAdvance || decide (found.2.length < after.length)).map
        fun found => after.length - found.2.length
  le_length _ _ _ _ isMatch := by
    obtain ⟨found, -, rfl⟩ := Option.map_eq_some_iff.mp isMatch
    exact Nat.sub_le _ _
  pos_of_mustAdvance _ after _ isMatch := by
    obtain ⟨found, isFound, rfl⟩ := Option.map_eq_some_iff.mp isMatch
    have shorter := find?_some isFound
    simp only [Bool.not_true, Bool.false_or, decide_eq_true_eq] at shorter
    exact Nat.sub_pos_of_lt shorter

/-- `^pattern` -/
def atStart (matcher : Matcher) : Matcher where
  matchAt mustAdvance before after :=
    if before = [] then matcher.matchAt mustAdvance before after else none
  le_length mustAdvance before after count isMatch := by
    split at isMatch
    · exact matcher.le_length mustAdvance before after count isMatch
    · cases isMatch
  pos_of_mustAdvance before after count isMatch := by
    split at isMatch
    · exact matcher.pos_of_mustAdvance before after count isMatch
    · cases isMatch

end Matcher

/-! ## Scans -/

/-- A text that is cut: what is before the first match, and for each match the label of its
pattern, its characters and what is up to the next. -/
structure Scan (γ : Type) where
  leading : Text
  found : List (γ × Text × Text)

/-- `re.split(patterns, text)` without the groups that did not match -/
def Scan.texts (scanned : Scan γ) : List Text :=
  scanned.leading :: scanned.found.flatMap fun item => [item.2.1, item.2.2]

/-- The scan of a text with one more character. -/
def Scan.skip (char : Char) (scanned : Scan γ) : Scan γ :=
  { scanned with leading := char :: scanned.leading }

/-- The scan of a text with a match in front of it. -/
def Scan.behind (label : γ) (span : Text) (scanned : Scan γ) : Scan γ where
  leading := []
  found := (label, span, scanned.leading) :: scanned.found

section Scanning

variable (matchers : List (γ × Matcher))

def firstMatch (mustAdvance : Bool) (before after : Text) : Option (γ × ℕ) :=
  matchers.findSome? fun item => (item.2.matchAt mustAdvance before after).map (item.1, ·)

/-- Go on at the next character. -/
def skipChar (scanOn : Text → Text → Scan γ) (before : Text) : Text → Scan γ
  | [] => ⟨[], []⟩
  | char :: rest => (scanOn (before ++ [char]) rest).skip char

/-- Go on after a match. -/
def passMatch (scanOn : Text → Text → Scan γ) (before after : Text) (label : γ) (count : ℕ) :
    Scan γ :=
  (scanOn (before ++ after.take count) (after.drop count)).behind label (after.take count)

def scanStep (scanOn : Text → Text → Scan γ) (before after : Text) : Scan γ :=
  match firstMatch matchers false before after with
  | none => skipChar scanOn before after
  | some (label, 0) =>
    -- a second match at this place needs characters
    (match firstMatch matchers true before after with
      | none => skipChar scanOn before after
      | some (next, count) => passMatch scanOn before after next count).behind label []
  | some (label, count + 1) => passMatch scanOn before after label (count + 1)

def scanFrom : ℕ → Text → Text → Scan γ
  | 0, _, after => ⟨after, []⟩
  | fuel + 1, before, after => scanStep matchers (scanFrom fuel) before after

def scan (text : Text) : Scan γ := scanFrom matchers (text.length + 1) [] text

variable {before after : Text}

theorem exists_of_firstMatch {mustAdvance : Bool} {label : γ} {count : ℕ}
    (isFirst : firstMatch matchers mustAdvance before after = some (label, count)) :
    ∃ item ∈ matchers, item.1 = label ∧ item.2.matchAt mustAdvance before after = some count := by
  obtain ⟨item, isItem, isMatch⟩ := exists_of_findSome?_eq_some isFirst
  obtain ⟨found, isFound, same⟩ := Option.map_eq_some_iff.mp isMatch
  obtain ⟨rfl, rfl⟩ := Prod.mk.inj same
  exact ⟨item, isItem, rfl, isFound⟩

/-! ### A scan keeps the text -/

theorem flatten_skipChar {scanOn : Text → Text → Scan γ}
    (keeps : ∀ before after, (scanOn before after).texts.flatten = after) (before after : Text) :
    (skipChar scanOn before after).texts.flatten = after := by
  cases after with
  | nil => rfl
  | cons char rest => exact congrArg (char :: ·) (keeps (before ++ [char]) rest)

theorem flatten_passMatch {scanOn : Text → Text → Scan γ}
    (keeps : ∀ before after, (scanOn before after).texts.flatten = after) (before after : Text)
    (label : γ) (count : ℕ) :
    (passMatch scanOn before after label count).texts.flatten = after := by
  have rest := keeps (before ++ after.take count) (after.drop count)
  rw [Scan.texts, flatten_cons] at rest
  rw [passMatch, Scan.behind, Scan.texts, flatten_cons, nil_append, flatMap_cons, flatten_append]
  simp only [flatten_cons, flatten_nil, append_nil, append_assoc]
  rw [rest, take_append_drop]

theorem flatten_scanFrom (fuel : ℕ) (before after : Text) :
    (scanFrom matchers fuel before after).texts.flatten = after := by
  induction fuel generalizing before after with
  | zero => simp [scanFrom, Scan.texts]
  | succ fuel ih =>
    rw [scanFrom, scanStep]
    split
    · exact flatten_skipChar ih before after
    · split
      · exact flatten_skipChar ih before after
      · exact flatten_passMatch ih before after _ _
    · exact flatten_passMatch ih before after _ _

theorem flatten_scan (text : Text) : (scan matchers text).texts.flatten = text :=
  flatten_scanFrom matchers _ [] text

/-- Nothing is before the first match where a pattern matches at the start. -/
theorem leading_scan_eq_nil_iff (text : Text) : (scan matchers text).leading = [] ↔
    text = [] ∨ (firstMatch matchers false [] text).isSome := by
  rw [scan, scanFrom, scanStep]
  split
  · rename_i none
    rw [none]
    cases text with
    | nil => simp [skipChar]
    | cons char rest => simp [skipChar, Scan.skip]
  · rename_i some
    rw [some]
    simp [Scan.behind]
  · rename_i some
    rw [some]
    simp [passMatch, Scan.behind]

/-! ### Where the pieces are -/

/-- A span that is the first match of its pattern at a place. A match that must have characters
comes after one without. -/
def FoundAt (item : γ × Text × Text) : Prop :=
  ∃ mustAdvance before after count,
    firstMatch matchers mustAdvance before after = some (item.1, count) ∧
      item.2.1 = after.take count ∧
        (mustAdvance = true → ∃ label, firstMatch matchers false before after = some (label, 0))

/-- A span that is found is a first match. -/
theorem foundAt_of_mem {fuel : ℕ} {item : γ × Text × Text}
    (isFound : item ∈ (scanFrom matchers fuel before after).found) : FoundAt matchers item := by
  induction fuel generalizing before after with
  | zero => cases isFound
  | succ fuel ih =>
    have skipped : item ∈ (skipChar (scanFrom matchers fuel) before after).found →
        FoundAt matchers item := by
      intro isFound
      cases after with
      | nil => cases isFound
      | cons char rest => exact ih isFound
    rw [scanFrom, scanStep] at isFound
    split at isFound
    · exact skipped isFound
    · rename_i label isFirst
      rcases mem_cons.mp isFound with rfl | later
      · exact ⟨false, before, after, 0, isFirst, rfl, fun isTrue => by cases isTrue⟩
      · split at later
        · exact skipped later
        · rename_i isNext
          rcases mem_cons.mp later with rfl | later
          · exact ⟨true, before, after, _, isNext, rfl, fun _ => ⟨label, isFirst⟩⟩
          · exact ih later
    · rename_i isFirst
      rcases mem_cons.mp isFound with rfl | later
      · exact ⟨false, before, after, _, isFirst, rfl, fun isTrue => by cases isTrue⟩
      · exact ih later

end Scanning

end Geobench.Library
