import Letterhead.Comment.Block
/-
# Formats of a twig header

Twig headers were written in several formats over time. The older ones are
tried before the plain comment: they lead each line with a marker, and two of
them open with a blank.
-/
namespace Letterhead

/-- The formats of a header in a twig template. -/
inductive TwigFormat
  | paddedAsterisk | paddedHash | asterisk | hash
deriving DecidableEq, Repr

namespace TwigFormat

/-- The formats in the order in which they are tried (`TWIG_CANDIDATES`). -/
def all : List TwigFormat := [paddedAsterisk, paddedHash, asterisk, hash]

def name : TwigFormat → Text
  | paddedAsterisk => "padded-asterisk".toList
  | paddedHash => "padded-hash".toList
  | asterisk => "asterisk".toList
  | hash => "hash".toList

/-- The rest of a line, up to where a comment would close (`_TWIG_LINE`). -/
def line : Pattern :=
  .many (.seq (.unlessNext ['#', '}']) (.oneOf (· != '\n')))

/-- A line that leads with a marker behind spaces and tabs. A carriage return in
front of the line feed belongs to the line before, which takes any character but
the line feed. -/
def markedLine (marker : Text) : Pattern :=
  .all [.text ['\n'], .many (.oneOf fun c => c == ' ' || c == '\t'), .text marker, line]

/-- A comment in which every line but the first leads with a marker (`_twig_pattern`). -/
def marked (opening marker : Text) : Pattern :=
  .all [.text opening, line, .oneOrMore (markedLine marker), .blanks, .text ['#', '}']]

def pattern : TwigFormat → Pattern
  | paddedAsterisk => marked ['{', '#', ' '] ['*']
  | paddedHash => marked ['{', '#', ' '] ['#']
  | asterisk => marked ['{', '#'] ['*']
  | hash => FileType.twig.profile.comment.block

def leading? (f : TwigFormat) (s : Text) : Option Span := f.pattern.leading? s

end TwigFormat
end Letterhead
