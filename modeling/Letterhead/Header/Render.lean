import Letterhead.Comment.FileType
/-
# Rendering a licence text

The text of a licence between the delimiters of a file type. A text that comes
as a doc block keeps what is inside the block.
-/
namespace Letterhead

namespace Render

def docBlock : Delimiters := ⟨['/', '*', '*'], ['*', '/']⟩

/-- Whether a text is a doc block. The two delimiters may not share a character. -/
def isDocBlock (s : Text) : Bool :=
  docBlock.opening.isPrefixOf s && docBlock.closing.isSuffixOf s && 5 ≤ s.length

/-- What goes between the delimiters: the inside of a doc block, or all of the
text on lines of its own. -/
def interior (licence : Text) : Text :=
  let s := Text.strip licence
  if isDocBlock s then (s.drop 3).take (s.length - 5) else '\n' :: (s ++ ['\n'])

/-- Puts a marker for the star that is the first character of a line, past
spaces and tabs. -/
def markLine (marker line : Text) : Text :=
  let isIndent (c : Char) : Bool := c == ' ' || c == '\t'
  match line.dropWhile isIndent with
  | '*' :: rest => line.takeWhile isIndent ++ marker ++ rest
  | _ => line

/-- Puts a marker for the star that leads each line (`_LINE_MARKER`). -/
def markLines (marker s : Text) : Text :=
  Text.joinWith ['\n'] ((Text.splitOn '\n' s).map (markLine marker))

end Render

/-- The header of a licence text for a syntax (`render`). -/
def render (licence : Text) (p : Profile) : Text :=
  let body := Render.interior licence
  let body := match p.continuation with
    | some marker => Render.markLines marker body
    | none => body
  p.header.opening ++ body ++ p.header.closing

end Letterhead
