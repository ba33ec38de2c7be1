import Letterhead.Comment.Twig
import Letterhead.Php.Node
/-
# Detecting a header

A header is the comment at the top of a file. It is ours when it holds the
marker, without regard to case: then it may be replaced. A foreign comment
stays, and our header goes in front of it.
-/
namespace Letterhead

/-- How a detected comment is written. -/
inductive Style
  | plain (t : FileType)
  | twig (f : TwigFormat)
deriving DecidableEq, Repr

def Style.name : Style → Text
  | .plain t => t.name
  | .twig f => f.name

/-- Where a new header goes. -/
inductive Place
  | top
  | behindOpenTag
deriving DecidableEq, Repr

/-- A comment that was detected. -/
structure Found where
  text : Text
  span : Span
  style : Style
deriving DecidableEq, Repr

/-- What detection says of a text (`MatchResult`). -/
inductive Detection
  /-- There is no comment at the top. -/
  | absent (place : Place)
  /-- A comment without the marker. -/
  | foreign (comment : Found) (place : Place)
  /-- A comment with the marker. -/
  | ours (comment : Found)
deriving DecidableEq, Repr

/-- What detects headers: one way for each kind of syntax. -/
inductive Matcher
  /-- By the tree of the file. -/
  | tree (read : Php.Reader)
  /-- By the formats of twig headers. -/
  | twig
  /-- By the block comment of the type. -/
  | block (t : FileType)

namespace Matcher

/-- The matcher of a type (`build_matcher`). -/
def ofType (read : Php.Reader) : FileType → Matcher
  | .php => tree read
  | .twig => twig
  | t => block t

/-- The detection of a comment that stands at the top (`_match_pattern`). -/
def detected (marker content : Text) (style : Style) (span : Span) : Detection :=
  let comment : Found := ⟨span.of content, span, style⟩
  if Text.includesIgnoringCase comment.text marker then .ours comment else .foreign comment .top

/-- The first format of a list that is met, and where (`TwigHeaderMatcher.find_header`). -/
def firstFormat? (content : Text) : List TwigFormat → Option (TwigFormat × Span)
  | [] => none
  | f :: fs => match f.leading? content with
    | some span => some (f, span)
    | none => firstFormat? content fs

/-- The detection that leading comments of a PHP file lead to
(`PhpHeaderMatcher.find_header`): the first with the marker is ours, and else the first of
all is foreign. -/
def ofComments (marker : Text) (comments : List Php.Comment) : Detection :=
  let found (c : Php.Comment) : Found := ⟨c.text, c.span, .plain .php⟩
  match comments.find? fun c => Text.includesIgnoringCase c.text marker with
  | some c => .ours (found c)
  | none => match comments with
    | c :: _ => .foreign (found c) .behindOpenTag
    | [] => .absent .behindOpenTag

/-- What the matcher says of a text (`HeaderMatcher.find_header`). -/
def detect (m : Matcher) (marker content : Text) : Except Php.Fault Detection :=
  match m with
  | tree read => match read content with
    | .ok comments => .ok (ofComments marker comments)
    | .error e => .error e
  | twig => .ok (match firstFormat? content TwigFormat.all with
    | some (f, span) => detected marker content (.twig f) span
    | none => .absent .top)
  | block t => .ok (match t.profile.comment.block.leading? content with
    | some span => detected marker content (.plain t) span
    | none => .absent .top)

end Matcher
end Letterhead
