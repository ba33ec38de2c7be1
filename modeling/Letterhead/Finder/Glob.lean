import Letterhead.Text.Basic
/-
# Name patterns

Patterns for the names of files: a star for any characters, a question mark for
one, and brackets for one of a set. Everything else stands for itself, and so
does a bracket that is not closed.
-/
namespace Letterhead

/-- The characters that brackets stand for: those in one of the ranges, or those
in none. -/
structure CharSet where
  negated : Bool
  ranges : List (Char × Char)
deriving DecidableEq, Repr

def CharSet.holds (s : CharSet) (c : Char) : Bool :=
  (s.ranges.any fun r => r.1 ≤ c && c ≤ r.2) != s.negated

namespace Glob

/-- A part of a pattern. -/
inductive Part
  | star
  | one
  | exactly (c : Char)
  | oneOf (s : CharSet)
deriving DecidableEq, Repr

/-! ## Brackets -/

/-- A character inside brackets, or a hyphen that makes a range. -/
inductive SetItem
  | char (c : Char)
  | range
deriving DecidableEq, Repr

/-- The pieces between the hyphens that make ranges. A hyphen makes one if a
character of its own stands on either side; `first` tells how many characters
cannot be one. -/
def pieces : Nat → Text → List Text
  | _, [] => [[]]
  | 0, '-' :: s => [] :: pieces 2 s
  | 0, c :: s => onFirst c (pieces 0 s)
  | n + 1, c :: s => onFirst c (pieces n s)
where
  /-- Puts a character in front of the first piece. -/
  onFirst (c : Char) : List Text → List Text
    | [] => [[c]]
    | p :: ps => (c :: p) :: ps

/-- Pieces whose last hyphen closes the brackets: it stands for itself. -/
def closeLast : List Text → List Text
  | [p, []] => [p ++ ['-']]
  | p :: ps => p :: closeLast ps
  | [] => []

/-- Drops the ranges that end before they begin: the pieces around are one. -/
def dropReversed : List Text → List Text
  | [] => []
  | p :: ps =>
    match dropReversed ps with
    | [] => [p]
    | q :: qs =>
      match p.getLast?, q.head? with
      | some low, some high => if high < low then (p.dropLast ++ q.tail) :: qs else p :: q :: qs
      | _, _ => p :: q :: qs

def itemsOf : List Text → List SetItem
  | [] => []
  | [p] => p.map .char
  | p :: ps => p.map .char ++ .range :: itemsOf ps

def rangesOf : List SetItem → List (Char × Char)
  | .char low :: .range :: .char high :: rest => (low, high) :: rangesOf rest
  | .char c :: rest => (c, c) :: rangesOf rest
  | .range :: rest => ('-', '-') :: rangesOf rest
  | [] => []

def setItems (inside : Text) : List SetItem :=
  if inside.contains '-' then
    itemsOf (dropReversed (closeLast (pieces (if inside.head? = some '!' then 2 else 1) inside)))
  else inside.map .char

/-- What stands for the brackets around a text: an exclamation mark negates. -/
def setOf (inside : Text) : Part :=
  match setItems inside with
  | .char '!' :: rest => .oneOf ⟨true, rangesOf rest⟩
  | items => .oneOf ⟨false, rangesOf items⟩

/-! ## Patterns -/

/-- How many characters after an opening bracket cannot close it. -/
def closedBehind (s : Text) : Nat :=
  match s with
  | '!' :: ']' :: _ => 2
  | '!' :: _ => 1
  | ']' :: _ => 1
  | _ => 0

/-- What brackets hold, if they are closed. -/
def inside? (s : Text) : Option Text :=
  let n := closedBehind s
  let rest := s.drop n
  let more := rest.takeWhile (· != ']')
  if more.length < rest.length then some (s.take n ++ more) else none

/-- The parts of a pattern, behind so many characters that are read already. -/
def partsFrom : Nat → Text → List Part
  | _, [] => []
  | n + 1, _ :: s => partsFrom n s
  | 0, c :: s =>
    if c = '*' then .star :: partsFrom 0 s
    else if c = '?' then .one :: partsFrom 0 s
    else if c = '[' then
      match inside? s with
      | some inside => setOf inside :: partsFrom (inside.length + 1) s
      | none => .exactly c :: partsFrom 0 s
    else .exactly c :: partsFrom 0 s

def parts (pattern : Text) : List Part := partsFrom 0 pattern

def Part.takes (p : Part) (c : Char) : Bool :=
  match p with
  | star => false
  | one => true
  | exactly d => c == d
  | oneOf s => s.holds c

/-- The text and all that is left of it behind some of its characters. -/
def tails : Text → List Text
  | [] => [[]]
  | c :: s => (c :: s) :: tails s

/-- What may be left of a text behind a part, if all of `rests` may be in front
of it. They go from the longest to the shortest and are ends of one text, so that
behind a star all the ends of the first may be left. -/
def behind (p : Part) (rests : List Text) : List Text :=
  match p with
  | .star => match rests with
    | [] => []
    | longest :: _ => tails longest
  | p => rests.filterMap fun
    | [] => none
    | c :: s => if p.takes c then some s else none

/-- What may be left of a name behind parts. -/
def leftBy : List Part → List Text → List Text
  | [], rests => rests
  | p :: ps, rests => leftBy ps (behind p rests)

def takesAll (ps : List Part) (name : Text) : Bool := (leftBy ps [name]).any List.isEmpty

/-- Whether a pattern stands for a name. -/
def accepts (pattern name : Text) : Bool := takesAll (parts pattern) name

end Glob
end Letterhead
