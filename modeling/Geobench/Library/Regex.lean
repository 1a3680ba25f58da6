import Geobench.Library.Matches
import Geobench.Library.Patterns

/-!
# Regular expressions that capture

A match of a regular expression is found by backtracking: `matchesAt` lists the matches at the
beginning of a text with what their groups capture, those first that are preferred. A repetition is
of single characters, as many of them as there are (`star`) or as few (`lazy`).
-/

namespace Geobench.Library

inductive Regex where
  | empty
  | one (member : Char → Bool)
  | star (member : Char → Bool)
  | lazy (member : Char → Bool)
  | seq (first second : Regex)
  | opt (regex : Regex)
  | group (regex : Regex)

/-- What can follow characters of a class, of which as many as possible are preferred. -/
def starRests (member : Char → Bool) : Text → List Text
  | [] => [[]]
  | char :: text => if member char then starRests member text ++ [char :: text] else [char :: text]

/-- The same with as few characters as possible. -/
def lazyRests (member : Char → Bool) : Text → List Text
  | [] => [[]]
  | char :: text => (char :: text) :: if member char then lazyRests member text else []

namespace Regex

/-- What the groups of the matches at the beginning of a text capture, and what follows them. -/
def matchesAt : Regex → Text → List (List Text × Text)
  | empty, text => [([], text)]
  | one _, [] => []
  | one member, char :: text => if member char then [([], text)] else []
  | star member, text => (starRests member text).map fun rest => ([], rest)
  | lazy member, text => (lazyRests member text).map fun rest => ([], rest)
  | seq first second, text => (first.matchesAt text).flatMap fun found =>
    (second.matchesAt found.2).map fun next => (found.1 ++ next.1, next.2)
  | opt regex, text => regex.matchesAt text ++ [([], text)]
  | group regex, text => (regex.matchesAt text).map fun found =>
    (text.take (text.length - found.2.length) :: found.1, found.2)

def matchAt (regex : Regex) (text : Text) : Option (List Text × Text) :=
  (regex.matchesAt text).head?

/-- What the groups of the first match capture. -/
def search (regex : Regex) (text : Text) : Option (List Text) :=
  text.tails.findSome? fun rest => (regex.matchAt rest).map Prod.fst

/-- What the groups of the matches capture, from the left and without overlaps. -/
def findall (regex : Regex) (text : Text) : List (List Text) := findMatches regex.matchAt 0 text

def sequence (regexes : List Regex) : Regex := regexes.foldr seq empty

/-- One or more characters of a class. -/
def plus (member : Char → Bool) : Regex := seq (one member) (star member)

def word (letters : Text) : Regex := sequence (letters.map fun letter => one (· = letter))

/-- The letters of a word, whatever their case. -/
def caseless (letters : Text) : Regex :=
  sequence (letters.map fun letter => one fun char => sameLetter letter char.toNat)

end Regex

end Geobench.Library
