import Letterhead.Text.Basic
/-
# Paths

A path as it is written: where it starts and the names on the way. Empty names
and single dots say nothing and are dropped; two dots are kept, since only the
disk knows where they lead.
-/
namespace Letterhead

/-- Where a path starts. -/
inductive PathStart
  /-- At the current folder. -/
  | here
  | root
  /-- At the root, written with two slashes. -/
  | doubledRoot
deriving DecidableEq, Repr

structure Path where
  start : PathStart
  names : List Text
deriving DecidableEq, Repr

namespace Path

/-- The start of a path that is written with so many slashes in front. -/
def startOf (slashes : Nat) : PathStart :=
  if slashes = 0 then .here else if slashes = 2 then .doubledRoot else .root

/-- The names between slashes, without those that say nothing. -/
def namesOf (s : Text) : List Text :=
  (Text.splitOn '/' s).filter fun n => !(n.isEmpty || n == ['.'])

/-- The path that a text is read as. -/
def ofText (s : Text) : Path := ⟨startOf (s.takeWhile (· == '/')).length, namesOf s⟩

def ofRoot (names : List Text) : Path := ⟨.root, names⟩

def startText (p : Path) : Text :=
  match p.start with
  | .here => []
  | .root => ['/']
  | .doubledRoot => ['/', '/']

def text (p : Path) : Text :=
  let s := p.startText ++ Text.joinWith ['/'] p.names
  if s.isEmpty then ['.'] else s

def isAbsolute (p : Path) : Bool := p.start != .here

/-- The second path taken from the first. -/
def join (p q : Path) : Path := if q.isAbsolute then q else ⟨p.start, p.names ++ q.names⟩

/-- The last name, empty where there is none. -/
def name (p : Path) : Text := p.names.getLast?.getD []

/-- The names, led by the slashes at the start. -/
def parts (p : Path) : List Text := if p.isAbsolute then p.startText :: p.names else p.names

end Path
end Letterhead
