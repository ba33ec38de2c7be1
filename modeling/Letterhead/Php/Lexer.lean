import Letterhead.Php.Terminal
/-
# Cutting one terminal

What a text begins with, where only some terminals are expected. Between quotes
nothing is passed over; elsewhere blanks, comments and stretches outside of the
code are. Of several terminals the longest is cut, and of two of one length the
keyword before the name and the name before the number.

Part of the stand-in parser (`Php.Tree`), on which no result rests.
-/
namespace Letterhead.Php

/-- Where cutting stands: what is left, and the label of the document that is
open, empty if none is. -/
structure Place where
  rest : Text
  label : Text
deriving Repr

namespace Lexer

/-! ## Characters -/

/-- The blanks of ASCII. -/
def isPlainBlank (c : Char) : Bool := c == ' ' || (9 ≤ c.toNat && c.toNat ≤ 13)

/-- The blanks between terminals. -/
def isSpace (c : Char) : Bool :=
  isPlainBlank c || c == '\u00A0' || c == '\u200B' || c == '\u2060' || c == '\uFEFF'

def isNameStart (c : Char) : Bool :=
  c == '_' || c.isAlpha || (0x80 ≤ c.toNat && c.toNat ≤ 0xFFFF && !isSpace c)

def isNamePart (c : Char) : Bool := isNameStart c || c.isDigit

def startsName (s : Text) : Bool := (s.head?.map isNameStart).getD false

def endsLine (c : Char) : Bool := c == '\n' || c == '\r'

/-! ## Stretches outside of the code -/

/-- The length of an open tag that a text begins with. -/
def openTagSize? : Text → Option Nat
  | '<' :: '?' :: '=' :: _ => some 3
  | '<' :: '?' :: p :: h :: q :: _ =>
    if Char.toLower p = 'p' && Char.toLower h = 'h' && Char.toLower q = 'p' then some 5
    else some 2
  | '<' :: '?' :: _ => some 2
  | _ => none

/-- The length of a text up to the code behind its next open tag: all of it where
there is none. -/
def outsideSize : Text → Nat
  | [] => 0
  | c :: s => match openTagSize? (c :: s) with
    | some n => n
    | none => outsideSize s + 1

/-- What is left in front of the first that is neither a blank nor in a line that
begins with two slashes; `inLine` tells that it does. -/
def behindLines (inLine : Bool) : Text → Text
  | [] => []
  | c :: s =>
    if inLine then behindLines (c != '\n') s
    else if isPlainBlank c then behindLines false s
    else if c = '/' && s.head? = some '/' then behindLines true s
    else c :: s

/-- The length of what stands outside of the code behind `?>`. Where nothing but
blanks and lines with two slashes follow, the code goes on at once. -/
def interludeSize (s : Text) : Nat :=
  if (behindLines false s).isEmpty then 0 else outsideSize s

/-! ## Comments -/

/-- The length of a line comment behind its mark. It ends at the line or in front
of `?>`. A question mark takes the next character along, so that only an odd one
ends it, and at the end of the line it takes that along too. -/
def lineSize : Text → Nat
  | '?' :: '\r' :: '\n' :: _ => 3
  | '?' :: '\n' :: _ => 2
  | '?' :: '>' :: _ => 0
  | ['?'] => 0
  | '?' :: '\r' :: _ => 0
  | '?' :: _ :: s => lineSize s + 2
  | c :: s => if endsLine c then 0 else lineSize s + 1
  | [] => 0

/-- The length of a block comment behind its mark, if it is closed. -/
def blockSize? : Text → Option Nat
  | '*' :: '/' :: _ => some 2
  | _ :: s => (blockSize? s).map (· + 1)
  | [] => none

/-- The length of a comment that a text begins with. A number sign in front of a
question mark or a bracket stands alone. -/
def commentSize? : Text → Option Nat
  | '/' :: '/' :: s => some (lineSize s + 2)
  | '/' :: '*' :: s => (blockSize? s).map (· + 2)
  | '#' :: '?' :: _ => some 1
  | '#' :: '[' :: _ => some 1
  | '#' :: s => some (lineSize s + 1)
  | _ => none

/-- The length of what can be passed over at the start of a text: a blank, a
comment, or a stretch outside of the code. -/
def extraSize? : Text → Option Nat
  | '?' :: '>' :: s => some (interludeSize s + 2)
  | c :: s => if isSpace c then some 1 else commentSize? (c :: s)
  | [] => none

/-! ## Words -/

/-- Whether a text begins with a word and ends or goes on with no character of a
name. The word is in lower case, and with `anyCase` the text need not be. -/
def takesWord (anyCase : Bool) : Text → Text → Bool
  | [], s => !(s.head?.map isNamePart).getD false
  | _ :: _, [] => false
  | c :: w, d :: s => (if anyCase then Char.toLower d == c else d == c) && takesWord anyCase w s

/-! ## Numbers -/

/-- The length of digits with underscores in front of groups. -/
def groupedSize (isDigit : Char → Bool) : Text → Nat
  | '_' :: d :: s => if isDigit d then groupedSize isDigit s + 2 else 0
  | d :: s => if isDigit d then groupedSize isDigit s + 1 else 0
  | [] => 0

def isHexDigit (c : Char) : Bool := (Text.hexDigit? c).isSome

def isOctalDigit (c : Char) : Bool := '0' ≤ c && c ≤ '7'

def isBinaryDigit (c : Char) : Bool := c == '0' || c == '1'

/-- The length of the digits of base eight behind a zero. -/
def octalSize : Text → Nat
  | 'o' :: s => groupedSize isOctalDigit s + 1
  | 'O' :: s => groupedSize isOctalDigit s + 1
  | s => groupedSize isOctalDigit s

/-- The length of a whole number that a text begins with. -/
def integerSize? : Text → Option Nat
  | '0' :: x :: d :: s =>
    if (x == 'x' || x == 'X') && isHexDigit d then some (groupedSize isHexDigit s + 3)
    else if (x == 'b' || x == 'B') && isBinaryDigit d then
      some (groupedSize isBinaryDigit s + 3)
    else some (octalSize (x :: d :: s) + 1)
  | '0' :: s => some (octalSize s + 1)
  | d :: s => if d.isDigit then some (groupedSize Char.isDigit s + 1) else none
  | [] => none

/-- The length of an exponent that a text begins with, if it has one. -/
def exponentSize : Text → Nat
  | [] => 0
  | e :: s =>
    if e = 'e' || e = 'E' then
      match s with
      | d :: t =>
        if d.isDigit then groupedSize Char.isDigit t + 2
        else if d = '+' || d = '-' then match t with
          | d :: t => if d.isDigit then groupedSize Char.isDigit t + 3 else 0
          | [] => 0
        else 0
      | [] => 0
    else 0

/-- The length of a number with a point or an exponent. The point may stand alone. -/
def floatSize? (s : Text) : Option Nat :=
  let whole := groupedSize Char.isDigit s
  match s.drop whole with
  | '.' :: r =>
    let fraction := groupedSize Char.isDigit r
    some (whole + 1 + fraction + exponentSize (r.drop fraction))
  | r => if exponentSize r = 0 then none else some (whole + exponentSize r)

/-! ## Plain quotes -/

def closedSize? (isPlain : Bool) : Text → Option Nat
  | [] => none
  | c :: s =>
    if isPlain then (closedSize? false s).map (· + 1)
    else if c = '\'' then some 1
    else (closedSize? (c == '\\') s).map (· + 1)

/-- The length of a text in single quotes, perhaps with a letter in front. -/
def plainTextSize? : Text → Option Nat
  | '\'' :: s => (closedSize? false s).map (· + 1)
  | 'b' :: '\'' :: s => (closedSize? false s).map (· + 2)
  | 'B' :: '\'' :: s => (closedSize? false s).map (· + 2)
  | _ => none

def openQuoteSize? : Text → Option Nat
  | '"' :: _ => some 1
  | 'b' :: '"' :: _ => some 2
  | 'B' :: '"' :: _ => some 2
  | _ => none

/-! ## Documents -/

/-- How a document opens: its label, the quote around the label, and the length
of all that. -/
structure Opening where
  label : Text
  quote : Option Char
  size : Nat

/-- The opening of a document that a text begins with. -/
def opening? (s : Text) : Option Opening :=
  if "<<<".toList.isPrefixOf s then
    let isBlank (c : Char) : Bool := c == ' ' || c == '\t'
    let s := s.drop 3
    let blanks := (s.takeWhile isBlank).length
    match s.drop blanks with
    | [] => none
    | q :: r =>
      let isQuote := q == '\'' || q == '"'
      let label := (if isQuote then r else q :: r).takeWhile isNamePart
      if label.isEmpty then none
      else if !isQuote then some ⟨label, none, 3 + blanks + label.length⟩
      else if (r.drop label.length).head? = some q then
        some ⟨label, some q, 5 + blanks + label.length⟩
      else none
  else none

/-- Whether a text begins with the label as the end of a document: a blank or one
of three marks follows, and behind blanks such a mark or the end of the line. -/
def closes (label s : Text) : Bool :=
  let isMark (c : Char) : Bool := c == ';' || c == ',' || c == ')'
  let rest := s.drop label.length
  !label.isEmpty && label.isPrefixOf s
    && (rest.head?.map fun c => isMark c || isPlainBlank c).getD false
    && ((rest.dropWhile fun c => isPlainBlank c && !endsLine c).head?.map fun c =>
      isMark c || endsLine c).getD false

/-- Whether the label closes a document behind the blanks that a text begins with. -/
def closesBelow (label s : Text) : Bool := closes label (s.dropWhile isPlainBlank)

/-- The length of the line breaks and blanks and of the label that end a document. -/
def closeSize? (label s : Text) : Option Nat :=
  let blanks := s.takeWhile isPlainBlank
  let rest := s.drop blanks.length
  if !label.isEmpty && blanks.any endsLine && takesWord false label rest then
    some (blanks.length + label.length)
  else none

/-- The length of a document without parts behind its opening, up to the label. -/
def plainBodySize? (label : Text) : Text → Option Nat
  | [] => none
  | c :: s =>
    if endsLine c && closesBelow label s then
      closeSize? label (c :: s)
    else (plainBodySize? label s).map (· + 1)

/-- The length of a document whose label stands in single quotes, and last on its
line. -/
def plainDocumentSize? (s : Text) : Option Nat :=
  match opening? s with
  | some ⟨label, some '\'', size⟩ =>
    let body := s.drop size
    let line := body.dropWhile fun c => isPlainBlank c && !endsLine c
    if (line.head?.map endsLine).getD false then (plainBodySize? label body).map (· + size)
    else none
  | _ => none

/-! ## Between quotes -/

/-- Whether a backslash in front of a text begins a sequence for a character. -/
def isEscape (q : Quote) : Text → Bool
  | [] => false
  | c :: s =>
    "nrtvef$\"\\u".toList.contains c || isOctalDigit c
      || (c == 'x' && (s.head?.map isHexDigit).getD false)
      || (c == '\x60' && q == .backtick)

/-- Whether a backslash takes the next character along without a meaning. -/
def keepsNext (q : Quote) : Text → Bool
  | '\x7b' :: _ => true
  | '\\' :: _ => q == .document
  | _ => false

/-- Whether a stretch between quotes stops in front of a character and what follows
it: at a part of code, at the closing quote, or above the label of the document. -/
def stops (q : Quote) (label : Text) (c : Char) (s : Text) : Bool :=
  if c = '$' then startsName s || s.head? = some '\x7b'
  else if c = '\x7b' then s.head? = some '$'
  else match q with
    | .double => c == '"'
    | .backtick => c == '\x60'
    | .document => endsLine c && closesBelow label s

/-- The length of a stretch between quotes. It ends behind a sequence for a
character. `isPlain` tells that the next character is taken along. -/
def stretchSize (q : Quote) (label : Text) (isPlain : Bool) : Text → Nat
  | [] => 0
  | c :: s =>
    if isPlain then stretchSize q label false s + 1
    else if c = '\\' then
      if keepsNext q s then stretchSize q label true s + 1
      else if isEscape q s then 2
      else stretchSize q label false s + 1
    else if stops q label c s then 0
    else stretchSize q label false s + 1

/-- The length of a stretch, if there is any. In a document none begins on the
line of a label that would close it. -/
def stretchSize? (q : Quote) (label s : Text) : Option Nat :=
  let isClosed := q == .document
    && closes label (s.dropWhile fun c => isPlainBlank c && !endsLine c)
  let n := if isClosed then 0 else stretchSize q label false s
  if n = 0 then none else some n

/-! ## Terminals -/

/-- The length of a terminal at the start of a text. No document opens where one
is open. -/
def size? (p : Place) : Terminal → Option Nat
  | .keyword w => if takesWord true w p.rest then some w.length else none
  | .word w => if takesWord false w p.rest then some w.length else none
  | .name =>
    if startsName p.rest then some (p.rest.takeWhile isNamePart).length else none
  | .mark m => if m.isPrefixOf p.rest then some m.length else none
  | .integer => integerSize? p.rest
  | .float => floatSize? p.rest
  | .plainText => plainTextSize? p.rest
  | .plainDocument => if p.label.isEmpty then plainDocumentSize? p.rest else none
  | .openQuote => openQuoteSize? p.rest
  | .openDocument => match opening? p.rest with
    | some o => if p.label.isEmpty && o.quote != some '\'' then some o.size else none
    | none => none
  | .closeDocument => closeSize? p.label p.rest
  | .lineEnd => if (p.rest.head?.map endsLine).getD false then some 0 else none
  | .stretch q => stretchSize? q p.label p.rest
  | .index => if p.rest.head? = some '[' then some 1 else none
  | .member => match p.rest with
    | '-' :: '>' :: c :: _ => if isNamePart c then some 2 else none
    | _ => none
  | .stopAhead =>
    if "?>".toList.isPrefixOf (behindLines false p.rest) then some 0 else none
  | .endOfText => if p.rest.isEmpty then some 0 else none

/-- The place behind a terminal of this length. -/
def Place.behind (p : Place) (t : Terminal) (size : Nat) : Place :=
  ⟨p.rest.drop size, match t with
    | .openDocument => ((opening? p.rest).map Opening.label).getD []
    | .closeDocument => []
    | _ => p.label⟩

/-- The terminals that are looked for before anything is passed over, in the order
in which they are tried. -/
def inPlace : List Terminal :=
  [.index, .member, .stretch .double, .stretch .backtick, .stretch .document, .closeDocument,
   .lineEnd, .stopAhead]

/-- Which of two terminals of one length is cut: the one of the higher rank. -/
def rank : Terminal → Nat
  | .keyword _ => 2
  | .word _ => 2
  | .name => 1
  | _ => 0

/-- The longest of the terminals that a text begins with, and its length. -/
def longest? (p : Place) : List Terminal → Option (Terminal × Nat)
  | [] => none
  | t :: ts =>
    match size? p t, longest? p ts with
    | none, best => best
    | some n, none => some (t, n)
    | some n, some (u, m) =>
      if n < m || (n == m && rank t ≤ rank u) then some (u, m) else some (t, n)

/-- The first of the terminals that a text begins with, and its length. -/
def first? (p : Place) (ts : List Terminal) : Option (Terminal × Nat) :=
  ts.findSome? fun t => (size? p t).map (t, ·)

/-- Cuts one of the expected terminals, passing over what stands in front of it, in
at most so many steps: the terminal and the place behind it. Each step takes a
character at least. -/
def cutFrom? (early expected : List Terminal) : Nat → Place → Option (Terminal × Place)
  | 0, _ => none
  | n + 1, p =>
    match first? p early with
    | some (t, size) => some (t, Place.behind p t size)
    | none =>
      let best := longest? p expected
      match extraSize? p.rest with
      | some extra =>
        if extra ≤ (best.map (·.2)).getD 0 then best.map fun x => (x.1, Place.behind p x.1 x.2)
        else cutFrom? early expected n { p with rest := p.rest.drop extra }
      | none => best.map fun x => (x.1, Place.behind p x.1 x.2)

/-- The expected terminal that comes next, if no more than `n` characters are left,
and the place behind it. -/
def cut? (n : Nat) (expected : List Terminal) (p : Place) : Option (Terminal × Place) :=
  cutFrom? (inPlace.filter expected.contains) expected (n + 1) p

end Lexer
end Letterhead.Php
