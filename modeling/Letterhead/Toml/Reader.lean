import Letterhead.Toml.Document
/-
# Reading TOML

The configuration format: keys with values, headers that open tables, and
comments. A text is read as a whole or not at all.
-/
namespace Letterhead.Toml

/-- Why a text is not read. -/
inductive Fault
  | invalid
  /-- An integer has more digits than are converted. -/
  | hugeInteger
deriving DecidableEq, Repr

/-- A part that was read, and what follows. -/
abbrev Step (α : Type) := Except Fault (α × Text)

/-! ## Blanks and comments -/

def isSpace (c : Char) : Bool := c == ' ' || c == '\t'

/-- Control characters, of which a line may hold the tab only. -/
def isControl (c : Char) : Bool := (c.toNat < 32 && c != '\t') || c.toNat == 127

/-- Control characters, of which several lines may hold tabs and line ends. -/
def isControlOfLines (c : Char) : Bool := isControl c && c != '\n'

def skip (s : Text) : Text := s.dropWhile isSpace

/-- What follows a comment, up to the end of its line. -/
def skipComment : Text → Option Text
  | '#' :: s =>
    if (s.takeWhile (· != '\n')).any isControl then none else some (s.dropWhile (· != '\n'))
  | s => some s

/-- What follows blanks, line ends and comments. -/
def skipLines : Nat → Text → Option Text
  | 0, s => some s
  | n + 1, s =>
    match s.dropWhile fun c => isSpace c || c == '\n' with
    | '#' :: r => (skipComment ('#' :: r)).bind (skipLines n)
    | r => some r

/-! ## Texts -/

/-- The character of so many hexadecimal digits. -/
def hexChar (digits : Nat) (s : Text) : Step Char :=
  let taken := s.take digits
  match taken.mapM Text.hexDigit? with
  | some ds =>
    let n := Text.natOfDigits 16 ds
    if taken.length = digits && (n < 0xD800 || (0xDFFF < n && n < 0x110000)) then
      .ok (Char.ofNat n, s.drop digits)
    else .error .invalid
  | none => .error .invalid

def escapes : List (Char × Char) :=
  [('b', '\x08'), ('t', '\t'), ('n', '\n'), ('f', '\x0c'), ('r', '\r'), ('"', '"'), ('\\', '\\')]

/-- What follows a backslash that continues the line: blanks, a line end, and
all the blanks and line ends behind it. -/
def lineContinuation (s : Text) : Step Text :=
  let behind (r : Text) : Step Text := .ok ([], r.dropWhile fun c => isSpace c || c == '\n')
  match skip s with
  | [] => if s.isEmpty then .error .invalid else .ok ([], [])
  | '\n' :: r => behind r
  | _ => .error .invalid

/-- An escape, read behind its backslash. -/
def escape (lines : Bool) (s : Text) : Step Text :=
  match s with
  | 'u' :: r => (hexChar 4 r).map fun x => ([x.1], x.2)
  | 'U' :: r => (hexChar 8 r).map fun x => ([x.1], x.2)
  | c :: r =>
    if lines && (isSpace c || c = '\n') then lineContinuation (c :: r)
    else match escapes.lookup c with
      | some d => .ok ([d], r)
      | none => .error .invalid
  | [] => .error .invalid

/-- The characters up to the closing quotes, read behind the opening ones. -/
def basicText (lines : Bool) : Nat → Text → Step Text
  | 0, _ => .error .invalid
  | _ + 1, [] => .error .invalid
  | n + 1, c :: s =>
    if c = '"' then
      if !lines then .ok ([], s)
      else if ['"', '"'].isPrefixOf s then .ok ([], s.drop 2)
      else (basicText lines n s).map fun x => ('"' :: x.1, x.2)
    else if c = '\\' then
      match escape lines s with
      | .error e => .error e
      | .ok (t, rest) => (basicText lines n rest).map fun x => (t ++ x.1, x.2)
    else if (if lines then isControlOfLines c else isControl c) then .error .invalid
    else (basicText lines n s).map fun x => (c :: x.1, x.2)

/-- The characters up to the closing mark as they stand. -/
def literalText (mark : Text) (refused : Char → Bool) (s : Text) : Step Text :=
  match Text.find? mark s with
  | some i =>
    if (s.take i).any refused then .error .invalid
    else .ok (s.take i, s.drop (i + mark.length))
  | none => .error .invalid

/-- Up to two more quotes belong to a text that ends in three. -/
def withQuotes (quote : Char) (x : Text × Text) : Text × Text :=
  let more := (x.2.take 2).takeWhile (· == quote)
  (x.1 ++ more, x.2.drop more.length)

def dropLineEnd : Text → Text
  | '\n' :: s => s
  | s => s

def basicLine (s : Text) : Step Text := basicText false (s.length + 1) s

def literalLine (s : Text) : Step Text := literalText ['\''] isControl s

/-! ## Keys -/

/-- Characters of a name without quotes. -/
def isBare (c : Char) : Bool := c.isAlphanum || c == '-' || c == '_'

def keyPart (s : Text) : Step Text :=
  match s with
  | '\'' :: r => literalLine r
  | '"' :: r => basicLine r
  | c :: r =>
    if isBare c then .ok (c :: r.takeWhile isBare, r.dropWhile isBare) else .error .invalid
  | [] => .error .invalid

/-- A dotted name, and what follows it and the blanks behind it. -/
def key : Nat → Text → Step Key
  | 0, _ => .error .invalid
  | n + 1, s =>
    match keyPart s with
    | .error e => .error e
    | .ok (p, rest) => match skip rest with
      | '.' :: r => (key n (skip r)).map fun x => (p :: x.1, x.2)
      | r => .ok ([p], r)

/-! ## Numbers, dates and times -/

/-- A number of exactly so many digits. -/
def fixedDigits? (count : Nat) (s : Text) : Option (Nat × Text) :=
  let taken := s.take count
  if taken.length = count then
    (taken.mapM Text.digit?).map fun ds => (Text.natOfDigits 10 ds, s.drop count)
  else none

/-- What follows a character that has to be there. -/
def expect? (c : Char) : Text → Option Text
  | d :: s => if c = d then some s else none
  | [] => none

/-- A number of two digits between bounds. -/
def twoDigits? (low high : Nat) (s : Text) : Option (Nat × Text) :=
  (fixedDigits? 2 s).bind fun x => if low ≤ x.1 && x.1 ≤ high then some x else none

/-- A day, which the calendar need not have. -/
def date? (s : Text) : Option (Date × Text) := do
  let (year, s) ← fixedDigits? 4 s
  let s ← expect? '-' s
  let (month, s) ← twoDigits? 1 12 s
  let s ← expect? '-' s
  let (day, s) ← twoDigits? 1 31 s
  return (⟨year, month, day⟩, s)

/-- A fraction of a second in microseconds; places beyond the sixth are dropped. -/
def micros (s : Text) : Nat × Text :=
  match s with
  | '.' :: d :: r =>
    if d.isDigit then
      let digits := (d :: r).takeWhile Char.isDigit
      let kept := digits.take 6
      (Text.natOfDigits 10 (kept.filterMap Text.digit?) * Nat.pow 10 (6 - kept.length),
        (d :: r).dropWhile Char.isDigit)
    else (0, s)
  | _ => (0, s)

def time? (s : Text) : Option (Time × Text) := do
  let (hour, s) ← twoDigits? 0 23 s
  let s ← expect? ':' s
  let (minute, s) ← twoDigits? 0 59 s
  let s ← expect? ':' s
  let (second, s) ← twoDigits? 0 59 s
  let (micro, s) := micros s
  return (⟨hour, minute, second, micro⟩, s)

/-- A distance from universal time, if there is one. -/
def offset? (s : Text) : Option UtcOffset × Text :=
  match s with
  | 'Z' :: r | 'z' :: r => (some 0, r)
  | sign :: r =>
    if sign = '+' || sign = '-' then
      let read : Option (Nat × Text) := do
        let (hour, r) ← twoDigits? 0 23 r
        let r ← expect? ':' r
        let (minute, r) ← twoDigits? 0 59 r
        return (hour * 60 + minute, r)
      match read with
      | some (n, r) => (some (if sign = '-' then -(n : Int) else n), r)
      | none => (none, s)
    else (none, s)
  | [] => (none, s)

/-- A day, with a time of day behind it if there is one. -/
def dateTime? (s : Text) : Option (Step Setting) :=
  (date? s).map fun (d, rest) =>
    if d.isValid then
      let timed := match rest with
        | c :: r => if c = 'T' || c = 't' || c = ' ' then time? r else none
        | [] => none
      match timed with
      | some (t, r) =>
        let (o, r) := offset? r
        .ok (.dateTime d t o, r)
      | none => .ok (.date d, rest)
    else .error .invalid

/-- Digits of a class with single underscores between them, and what follows. -/
def spacedDigits (isDigit : Char → Bool) : Text → Text × Text
  | '_' :: c :: s =>
    if isDigit c then
      let x := spacedDigits isDigit s
      (c :: x.1, x.2)
    else ([], '_' :: c :: s)
  | c :: s =>
    if isDigit c then
      let x := spacedDigits isDigit s
      (c :: x.1, x.2)
    else ([], c :: s)
  | [] => ([], [])

/-- Digits that begin with one, and what follows. -/
def digitsFrom? (isDigit : Char → Bool) : Text → Option (Text × Text)
  | c :: s =>
    if isDigit c then
      let x := spacedDigits isDigit s
      some (c :: x.1, x.2)
    else none
  | [] => none

def natOf (base : Nat) (digits : Text) : Nat :=
  Text.natOfDigits base (digits.filterMap Text.hexDigit?)

/-- The bases with a letter of their own, and their digits. -/
def bases : List (Char × Nat × (Char → Bool)) :=
  [('x', 16, fun c => (Text.hexDigit? c).isSome), ('b', 2, fun c => c == '0' || c == '1'),
   ('o', 8, fun c => '0' ≤ c && c ≤ '7')]

def based? : Text → Option (Setting × Text)
  | '0' :: letter :: s =>
    (bases.lookup letter).bind fun (base, isDigit) =>
      (digitsFrom? isDigit s).map fun (ds, rest) => (.int (natOf base ds), rest)
  | _ => none

/-- The most digits an integer may have. -/
def mostDigits : Nat := 4300

/-- A whole part: a zero by itself, or digits that do not begin with one. -/
def whole? : Text → Option (Text × Text)
  | '0' :: s => some (['0'], s)
  | s => digitsFrom? Char.isDigit s

def exponent? (s : Text) : Option (Int × Text) :=
  let read (negative : Bool) (s : Text) : Option (Int × Text) :=
    (digitsFrom? Char.isDigit s).map fun (ds, rest) =>
      let n : Int := natOf 10 ds
      (if negative then -n else n, rest)
  match s with
  | e :: '+' :: r => if e = 'e' || e = 'E' then read false r else none
  | e :: '-' :: r => if e = 'e' || e = 'E' then read true r else none
  | e :: r => if e = 'e' || e = 'E' then read false r else none
  | [] => none

/-- A decimal number behind its sign. -/
def decimal? (negative : Bool) (s : Text) : Option (Step Setting) :=
  (whole? s).map fun (whole, rest) =>
    let fraction := match rest with
      | '.' :: r => digitsFrom? Char.isDigit r
      | _ => none
    let behind := (fraction.map (·.2)).getD rest
    let exponent := exponent? behind
    match fraction, exponent with
    | none, none =>
      if mostDigits < whole.length then .error .hugeInteger
      else
        let n : Int := natOf 10 whole
        .ok (.int (if negative then -n else n), rest)
    | _, _ =>
      let decimals := (fraction.map (·.1)).getD []
      let power : Int := (exponent.map (·.1)).getD 0 - decimals.length
      .ok (.float (Binary64.ofDecimal negative (natOf 10 (whole ++ decimals)) power),
        (exponent.map (·.2)).getD behind)

/-- A number, an infinity or no number at all. -/
def number (s : Text) : Step Setting :=
  match based? s with
  | some x => .ok x
  | none =>
    let (negative, body) := match s with
      | '-' :: r => (true, r)
      | '+' :: r => (false, r)
      | r => (false, r)
    match decimal? negative body with
    | some x => x
    | none =>
      if "inf".toList.isPrefixOf body then .ok (.float (.infinite negative), body.drop 3)
      else if "nan".toList.isPrefixOf body then .ok (.float .nan, body.drop 3)
      else .error .invalid

/-- A date, a time or a number. -/
def scalar (s : Text) : Step Setting :=
  match dateTime? s with
  | some x => x
  | none => match time? s with
    | some (t, rest) => .ok (.time t, rest)
    | none => number s

/-! ## Values -/

/-- A value that takes no other values. -/
def simple (s : Text) : Step Setting :=
  let asText (x : Step Text) : Step Setting := x.map fun x => (.text x.1, x.2)
  match s with
  | '"' :: '"' :: '"' :: r =>
    let r := dropLineEnd r
    asText ((basicText true (r.length + 1) r).map (withQuotes '"'))
  | '"' :: r => asText (basicLine r)
  | '\'' :: '\'' :: '\'' :: r =>
    asText ((literalText ['\'', '\'', '\''] isControlOfLines (dropLineEnd r)).map
      (withQuotes '\''))
  | '\'' :: r => asText (literalLine r)
  | s =>
    if "true".toList.isPrefixOf s then .ok (.bool true, s.drop 4)
    else if "false".toList.isPrefixOf s then .ok (.bool false, s.drop 5)
    else scalar s

/-- What follows blanks, line ends and comments, or a fault of a comment. -/
def linesSkipped (s : Text) : Except Fault Text :=
  match skipLines (s.length + 1) s with
  | some r => .ok r
  | none => .error .invalid

/-- Sets a key of a table in braces. Names of bracketed values take no more keys. -/
def addInline (t : Table) (frozen : List Key) (k : Key) (v : Setting) : Except Fault Table :=
  match k.getLast? with
  | none => .error .invalid
  | some last =>
    if frozen.any (·.isPrefixOf k) then .error .invalid
    else match change false (add last v) k.dropLast t with
      | some t => .ok t
      | none => .error .invalid

mutual

/-- A value, within `n` steps. -/
def value : Nat → Text → Except Fault (Setting × Text)
  | 0, _ => .error .invalid
  | n + 1, s =>
    match s with
    | '[' :: r => do
      match ← linesSkipped r with
      | ']' :: rest => return (.list [], rest)
      | r => do
        let (items, rest) ← items n r
        return (.list items, rest)
    | '{' :: r => do
      match skip r with
      | '}' :: rest => return (.table [], rest)
      | r => do
        let (t, rest) ← inlineTable n [] [] r
        return (.table t, rest)
    | s => simple s

def items : Nat → Text → Except Fault (List Setting × Text)
  | 0, _ => .error .invalid
  | n + 1, s => do
    let (v, r) ← value n s
    match ← linesSkipped r with
    | ']' :: rest => return ([v], rest)
    | ',' :: r => do
      match ← linesSkipped r with
      | ']' :: rest => return ([v], rest)
      | r => do
        let (vs, rest) ← items n r
        return (v :: vs, rest)
    | _ => .error .invalid

/-- The keys of a table in braces up to the closing one. -/
def inlineTable : Nat → Table → List Key → Text → Except Fault (Table × Text)
  | 0, _, _, _ => .error .invalid
  | n + 1, t, frozen, s => do
    let (k, r) ← key (s.length + 1) s
    match r with
    | '=' :: r => do
      let (v, r) ← value n (skip r)
      let t ← addInline t frozen k v
      match skip r with
      | '}' :: rest => return (t, rest)
      | ',' :: r => inlineTable n t (if isBracketed v then k :: frozen else frozen) (skip r)
      | _ => .error .invalid
    | _ => .error .invalid

end

/-! ## Statements -/

/-- The document behind a change that may be refused. -/
def orRefused (d : Option Document) (rest : Text) : Step Document :=
  match d with
  | some d => .ok (d, rest)
  | none => .error .invalid

/-- A header or a key with its value. -/
def statement (d : Document) (s : Text) : Except Fault (Document × Text) :=
  match s with
  | '[' :: '[' :: r => do
    let (k, r) ← key (r.length + 1) (skip r)
    let (d, r) ← orRefused (d.settle.openListItem k) r
    match r with
    | ']' :: ']' :: rest => return (d, rest)
    | _ => .error .invalid
  | '[' :: r => do
    let (k, r) ← key (r.length + 1) (skip r)
    let (d, r) ← orRefused (d.settle.openTable k) r
    match r with
    | ']' :: rest => return (d, rest)
    | _ => .error .invalid
  | s => do
    let (k, r) ← key (s.length + 1) s
    match r with
    | '=' :: r => do
      let (v, rest) ← value (r.length + 1) (skip r)
      orRefused (d.set k v) rest
    | _ => .error .invalid

/-- The document behind the statements of a text, one a line. -/
def statements : Nat → Document → Text → Except Fault Document
  | 0, d, _ => .ok d
  | n + 1, d, s =>
    match skip s with
    | [] => .ok d
    | '\n' :: r => statements n d r
    | s => do
      let (d, r) ← if s.head? = some '#' then .ok (d, s) else statement d s
      match skipComment (skip r) with
      | none => .error .invalid
      | some [] => .ok d
      | some ('\n' :: r) => statements n d r
      | some _ => .error .invalid

/-- The table that a text holds. -/
def read (s : Text) : Except Fault Table :=
  (statements (s.length + 1) .empty (Text.unifyLineEnds s)).map (·.root)

end Letterhead.Toml
