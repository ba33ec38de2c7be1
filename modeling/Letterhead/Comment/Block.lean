import Letterhead.Comment.FileType
import Letterhead.Comment.Pattern
/-
# Block comments

A block comment runs from an opening to the first closing after it. Two
definitions: the pattern that is matched, and a scan for the closing.
-/
namespace Letterhead.Delimiters

/-- The pattern of a block comment (`build_pattern`): the opening, characters at which no
closing begins, and the closing. -/
def block (d : Delimiters) : Pattern :=
  .all [.text d.opening, .many (.seq (.unlessNext d.closing) (.oneOf fun _ => true)),
    .text d.closing]

/-- Length of the block comment that a text opens with, found by searching for
the closing behind the opening. -/
def scan? (d : Delimiters) (s : Text) : Option Nat :=
  if d.opening.isPrefixOf s then
    (Text.find? d.closing (s.drop d.opening.length)).map
      fun i => d.opening.length + i + d.closing.length
  else none

end Letterhead.Delimiters
