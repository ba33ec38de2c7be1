import Letterhead.Json.Value
/-
# Reading JSON

A value is read from the front of a text, and what follows it is handed back.
Reading is lenient in numbers (`NaN` and the infinities are accepted) and says
of the first thing that does not fit what was expected there.
-/
namespace Letterhead.Json

/-- What does not fit. -/
inductive Cause
  | value | name | colon | comma | extra | openString | control | escape | hex | byteOrderMark
deriving DecidableEq, Repr

def Cause.message : Cause → Text
  | .value => "Expecting value".toList
  | .name => "Expecting property name enclosed in double quotes".toList
  | .colon => "Expecting ':' delimiter".toList
  | .comma => "Expecting ',' delimiter".toList
  | .extra => "Extra data".toList
  | .openString => "Unterminated string starting at".toList
  | .control => "Invalid control character at".toList
  | .escape => "Invalid \\escape".toList
  | .hex => "Invalid \\uXXXX escape".toList
  | .byteOrderMark => "Unexpected UTF-8 BOM (decode using utf-8-sig)".toList

/-- Why reading stopped, and with how many characters left. -/
inductive Stop
  | malformed (cause : Cause) (left : Nat)
  /-- An integer has more digits than are converted. -/
  | hugeInteger
deriving DecidableEq, Repr

open Text (Point)

/-- Blanks between the parts of a value. -/
def isSpace (p : Point) : Bool :=
  p == .char ' ' || p == .char '\t' || p == .char '\n' || p == .char '\r'

def skip (s : Points) : Points := s.dropWhile isSpace

def digit? (p : Point) : Option Nat := p.char?.bind Text.digit?

def hexDigit? (p : Point) : Option Nat := p.char?.bind Text.hexDigit?

def isDigit (p : Point) : Bool := (digit? p).isSome

/-! ## Strings -/

/-- The character that a letter stands for behind a backslash. -/
def escapes : List (Char × Char) :=
  [('"', '"'), ('\\', '\\'), ('/', '/'), ('b', '\x08'), ('f', '\x0c'), ('n', '\n'), ('r', '\r'),
   ('t', '\t')]

/-- Four hexadecimal digits that are not the last of the text, and what follows. -/
def hex4? : Points → Option (Nat × Points)
  | a :: b :: c :: d :: e :: s =>
    match hexDigit? a, hexDigit? b, hexDigit? c, hexDigit? d with
    | some a, some b, some c, some d => some (Text.natOfDigits 16 [a, b, c, d], e :: s)
    | _, _, _, _ => none
  | _ => none

/-- The point of an escape by number, read behind its `u`. Two escapes in a row
that are the halves of a pair make one character. -/
def unicode (s : Points) : Except Stop (Point × Points) :=
  match hex4? s with
  | none => .error (.malformed .hex (s.length + 1))
  | some (high, rest) =>
    if 0xD800 ≤ high && high ≤ 0xDBFF then
      match rest with
      | .char '\\' :: .char 'u' :: more =>
        if more.length < 5 then .ok (.ofCode high, rest)
        else match hex4? more with
          | none => .error (.malformed .hex (more.length + 1))
          | some (low, behind) =>
            if 0xDC00 ≤ low && low ≤ 0xDFFF then
              .ok (.ofCode (0x10000 + (high - 0xD800) * 0x400 + (low - 0xDC00)), behind)
            else .ok (.ofCode high, rest)
      | _ => .ok (.ofCode high, rest)
    else .ok (.ofCode high, rest)

/-- A string that has no end. `opened` is what follows its opening quote. -/
def Stop.openString (opened : Points) : Stop := .malformed .openString (opened.length + 1)

/-- An escape, read behind its backslash. -/
def escape (opened s : Points) : Except Stop (Point × Points) :=
  match s with
  | [] => .error (.openString opened)
  | .char 'u' :: r => unicode r
  | p :: r => match p.char?.bind fun c => escapes.lookup c with
    | some c => .ok (.char c, r)
    | none => .error (.malformed .escape (r.length + 2))

/-- The points up to the closing quote, and what follows it, within `n` steps. -/
def string (opened : Points) : Nat → Points → Except Stop (Points × Points)
  | 0, _ => .error (.openString opened)
  | _ + 1, [] => .error (.openString opened)
  | n + 1, p :: s =>
    if p = .char '"' then .ok ([], s)
    else if p = .char '\\' then
      match escape opened s with
      | .error e => .error e
      | .ok (q, rest) => match string opened n rest with
        | .error e => .error e
        | .ok (qs, rest) => .ok (q :: qs, rest)
    else if p.code ≤ 0x1F then .error (.malformed .control (s.length + 1))
    else match string opened n s with
      | .error e => .error e
      | .ok (qs, rest) => .ok (p :: qs, rest)

/-! ## Numbers -/

/-- The most digits an integer may have. -/
def mostDigits : Nat := 4300

def natOf (ds : Points) : Nat := Text.natOfDigits 10 (ds.filterMap digit?)

/-- A fraction behind a whole part: its digits, and what follows. -/
def fraction? : Points → Option (Points × Points)
  | .char '.' :: d :: s =>
    if isDigit d then some (d :: s.takeWhile isDigit, s.dropWhile isDigit) else none
  | _ => none

/-- Digits of an exponent, and what follows. -/
def exponentDigits? (s : Points) : Option (Nat × Points) :=
  match s.takeWhile isDigit with
  | [] => none
  | ds => some (natOf ds, s.dropWhile isDigit)

/-- An exponent, and what follows. -/
def exponent? : Points → Option (Int × Points)
  | .char e :: s =>
    if e = 'e' || e = 'E' then
      match s with
      | .char '-' :: r => (exponentDigits? r).map fun x => (-(x.1 : Int), x.2)
      | .char '+' :: r => (exponentDigits? r).map fun x => ((x.1 : Int), x.2)
      | r => (exponentDigits? r).map fun x => ((x.1 : Int), x.2)
    else none
  | _ => none

/-- A number whose whole part is read. -/
def numberFrom (negative : Bool) (whole rest : Points) : Except Stop (Json × Points) :=
  let fraction := fraction? rest
  let behind := (fraction.map (·.2)).getD rest
  let exponent := exponent? behind
  match fraction, exponent with
  | none, none =>
    if mostDigits < whole.length then .error .hugeInteger
    else .ok (.int (if negative then -(natOf whole : Int) else natOf whole), rest)
  | _, _ =>
    let decimals := (fraction.map (·.1)).getD []
    let power : Int := (exponent.map (·.1)).getD 0 - decimals.length
    .ok (.float (Binary64.ofDecimal negative (natOf (whole ++ decimals)) power),
      (exponent.map (·.2)).getD behind)

/-- A number without its sign. A whole part leads with a zero only by itself. -/
def magnitude? (negative : Bool) (s : Points) : Option (Except Stop (Json × Points)) :=
  match s with
  | .char '0' :: r => some (numberFrom negative [.char '0'] r)
  | d :: r =>
    if isDigit d then some (numberFrom negative (d :: r.takeWhile isDigit) (r.dropWhile isDigit))
    else none
  | [] => none

/-! ## Values -/

def words : List (Points × Json) :=
  [(Text.toPoints "null".toList, .null), (Text.toPoints "true".toList, .bool true),
   (Text.toPoints "false".toList, .bool false), (Text.toPoints "NaN".toList, .float .nan),
   (Text.toPoints "Infinity".toList, .float (.infinite false)),
   (Text.toPoints "-Infinity".toList, .float (.infinite true))]

/-- A word or a number. -/
def scalar (s : Points) : Except Stop (Json × Points) :=
  match words.find? fun w => w.1.isPrefixOf s with
  | some (w, v) => .ok (v, s.drop w.length)
  | none =>
    let number := match s with
      | .char '-' :: r => magnitude? true r
      | r => magnitude? false r
    number.getD (.error (.malformed .value s.length))

mutual

/-- A value, within `n` steps. An opening bracket takes two steps, one for the list
and one for its first item, and so does a comma; nothing takes more for a character. -/
def value : Nat → Points → Except Stop (Json × Points)
  | 0, s => .error (.malformed .value s.length)
  | n + 1, s =>
    match s with
    | .char '"' :: r => match string r (n + 1) r with
      | .error e => .error e
      | .ok (t, rest) => .ok (.text t, rest)
    | .char '[' :: r => match skip r with
      | .char ']' :: rest => .ok (.list [], rest)
      | r => match items n r with
        | .error e => .error e
        | .ok (vs, rest) => .ok (.list vs, rest)
    | .char '{' :: r => match skip r with
      | .char '}' :: rest => .ok (.object [], rest)
      | r => match fields n r with
        | .error e => .error e
        | .ok (fs, rest) => .ok (.object (fieldsOf fs), rest)
    | s => scalar s

def items : Nat → Points → Except Stop (List Json × Points)
  | 0, s => .error (.malformed .value s.length)
  | n + 1, s =>
    match value n s with
    | .error e => .error e
    | .ok (v, r) => match skip r with
      | .char ']' :: rest => .ok ([v], rest)
      | .char ',' :: rest => match items n (skip rest) with
        | .error e => .error e
        | .ok (vs, rest) => .ok (v :: vs, rest)
      | rest => .error (.malformed .comma rest.length)

/-- The fields up to the closing brace, as they are named. -/
def fields : Nat → Points → Except Stop (List (Points × Json) × Points)
  | 0, s => .error (.malformed .name s.length)
  | n + 1, s =>
    match s with
    | .char '"' :: r => match string r (n + 1) r with
      | .error e => .error e
      | .ok (key, r) => match skip r with
        | .char ':' :: r => match value n (skip r) with
          | .error e => .error e
          | .ok (v, r) => match skip r with
            | .char '}' :: rest => .ok ([(key, v)], rest)
            | .char ',' :: rest => match fields n (skip rest) with
              | .error e => .error e
              | .ok (fs, rest) => .ok ((key, v) :: fs, rest)
            | rest => .error (.malformed .comma rest.length)
        | r => .error (.malformed .colon r.length)
    | s => .error (.malformed .name s.length)

end

/-! ## Whole texts -/

/-- Why a text is no JSON value. -/
inductive Fault
  | malformed (cause : Cause) (offset line column : Nat)
  | hugeInteger
deriving DecidableEq, Repr

/-- The place of an offset: its line and its column, counted from one. -/
def placeOf (s : Points) (offset : Nat) : Nat × Nat :=
  let before := s.take offset
  let column := (before.reverse.takeWhile (· != Point.char '\n')).length
  (before.count (Point.char '\n') + 1, column + 1)

/-- A fault of a text where reading stopped. -/
def Fault.ofStop (s : Points) : Stop → Fault
  | .hugeInteger => .hugeInteger
  | .malformed cause left =>
    let offset := s.length - left
    .malformed cause offset (placeOf s offset).1 (placeOf s offset).2

/-- The value that a whole text is. Two steps for each of its characters, and two
more for its end, are enough. -/
def read (s : Points) : Except Fault Json :=
  if s.head? = some (.char '\uFEFF') then .error (.ofStop s (.malformed .byteOrderMark s.length))
  else match value (2 * s.length + 2) (skip s) with
    | .error e => .error (.ofStop s e)
    | .ok (v, rest) =>
      if (skip rest).isEmpty then .ok v
      else .error (.ofStop s (.malformed .extra (skip rest).length))

end Letterhead.Json
