import Letterhead.Header.Detection
/-
# Placing the header

The text of a file with an up-to-date header in its place. The header takes the
line ending of the first line; nothing but a header of ours is cut out.
-/
namespace Letterhead

namespace Text

/-- The line ending of the first line (`line_ending`), a line feed where there is but one
line. -/
def lineEnding (content : Text) : Text :=
  match (content.takeWhile (· != '\n')).getLast?, content.contains '\n' with
  | some '\r', true => ['\r', '\n']
  | _, _ => ['\n']

/-- The text with this text for every line end (`with_line_ending`). -/
def withLineEnding (newline s : Text) : Text :=
  (unifyLineEnds s).flatMap fun c => if c = '\n' then newline else [c]

end Text

namespace Placement

def openTag : Text := ['<', '?', 'p', 'h', 'p']

/-- What follows blanks of one line and a line end. -/
def behindLineEnd? (s : Text) : Option Text :=
  match s.dropWhile fun c => c == ' ' || c == '\t' with
  | '\n' :: r => some r
  | '\r' :: '\n' :: r => some r
  | _ => none

/-- Whether a text begins with the end of a line and a blank line (`_BLANK_LINE`). -/
def startsBlankLine (s : Text) : Bool := ((behindLineEnd? s).bind behindLineEnd?).isSome

/-- The header in place of what stands in a cut (`replace_match`). -/
def replace (content rendered : Text) (span : Span) : Text :=
  content.take span.start ++ rendered ++ content.drop span.stop

/-- The header on lines of its own in front of the text (`prepend`). -/
def prepend (newline content rendered : Text) : Text := rendered ++ newline ++ content

/-- The header behind the open tag that the text begins with (`insert_after_open_tag`). A
blank line that follows the tag already is not doubled; a tag further down is no place for
it. -/
def insertBehindTag (newline content rendered : Text) : Text :=
  if openTag.isPrefixOf content then
    let rest := content.drop openTag.length
    openTag ++ newline ++ rendered ++ (if startsBlankLine rest then [] else newline) ++ rest
  else content

end Placement

/-- The text with the header put where detection says (`rewrite`). -/
def place (content : Text) (d : Detection) (rendered : Text) : Text :=
  let newline := Text.lineEnding content
  let rendered := Text.withLineEnding newline rendered
  match d with
  | .ours comment => Placement.replace content rendered comment.span
  | .foreign _ .behindOpenTag | .absent .behindOpenTag =>
    Placement.insertBehindTag newline content rendered
  | .foreign _ .top | .absent .top => Placement.prepend newline content rendered

end Letterhead
