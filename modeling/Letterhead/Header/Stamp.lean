import Letterhead.Header.Placement
import Letterhead.Header.Render
/-
# Stamping a file

A stamp brings the header of a file of one type up to date. A byte order mark
stays in front, and the header goes behind it.
-/
namespace Letterhead

/-- What is put on files of one type (`HeaderHandler`): how to detect a header, the marker
that tells ours, and the header. -/
structure Stamp where
  fileType : FileType
  matcher : Matcher
  marker : Text
  rendered : Text

namespace Stamp

def ofLicence (read : Php.Reader) (marker licence : Text) (t : FileType) : Stamp :=
  ⟨t, .ofType read t, marker, render licence t.profile⟩

def byteOrderMark : Char := '\uFEFF'

/-- The text behind a byte order mark. -/
def body (content : Text) : Text :=
  if content.head? = some byteOrderMark then content.tail else content

/-- What a text has in front of its body. -/
def mark (content : Text) : Text :=
  if content.head? = some byteOrderMark then [byteOrderMark] else []

/-- What is detected in a text (`HeaderHandler.detect`). -/
def detect (stamp : Stamp) (content : Text) : Except Php.Fault Detection :=
  stamp.matcher.detect stamp.marker (body content)

def applyTo (stamp : Stamp) (content : Text) (d : Detection) : Text :=
  mark content ++ place (body content) d stamp.rendered

/-- The text with an up-to-date header (`HeaderHandler.apply`). -/
def apply (stamp : Stamp) (content : Text) : Except Php.Fault Text :=
  (stamp.detect content).map (stamp.applyTo content)

end Stamp
end Letterhead
