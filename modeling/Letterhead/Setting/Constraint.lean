import Letterhead.Setting.Value
import Letterhead.Text.Case
/-
# Constraints on settings

What a key asks for, and how a value of any source becomes that. Lists can be
given as one text with commas, so that every source can give one.
-/
namespace Letterhead

/-- Why a value is refused. -/
inductive SettingFault
  | notText (v : Setting)
  | notFlag (v : Setting)
  | notList (v : Setting)
  | emptyText
  | emptyList
  /-- The value is not of the kind that a key without constraint has. -/
  | wrongKind

namespace SettingFault

def message : SettingFault → Text
  | notText v => "Expected a string, got ".toList ++ v.shown
  | notFlag v => "Expected a boolean, got ".toList ++ v.shown
  | notList v => "Expected a comma-separated list of strings, got ".toList ++ v.shown
  | emptyText => "Value cannot be empty".toList
  | emptyList => "List cannot be empty".toList
  | wrongKind => "Invalid configuration".toList

/-- Whether the wording can be written: it shows the value that is refused for its kind. -/
def isShowable : SettingFault → Bool
  | notText v | notFlag v | notList v => v.isShowable
  | emptyText | emptyList | wrongKind => true

end SettingFault

namespace Setting

/-- A text, which may not be blank unless that is allowed (`StringConstraint.coerce`). -/
def asText (allowEmpty : Bool) : Setting → Except SettingFault Text
  | text s => if allowEmpty || !(Text.strip s).isEmpty then .ok s else .error .emptyText
  | v => .error (.notText v)

def yes : List Text := ["1", "true", "yes", "on"].map String.toList

def no : List Text := ["0", "false", "no", "off"].map String.toList

/-- A truth value or a word for one (`BoolConstraint.coerce`). -/
def asFlag : Setting → Except SettingFault Bool
  | bool b => .ok b
  | text s =>
    let word := Text.lower (Text.strip s)
    if yes.contains word then .ok true
    else if no.contains word then .ok false
    else .error (.notFlag (text s))
  | v => .error (.notFlag v)

/-- The texts of a list, if it holds nothing else. -/
def texts? : List Setting → Option (List Text)
  | [] => some []
  | text s :: vs => (texts? vs).map (s :: ·)
  | _ :: _ => Option.none

/-- The items of a value: those between commas, or those of a list of texts. -/
def items? : Setting → Option (List Text)
  | text s => some (Text.splitOn ',' s)
  | list vs => texts? vs
  | tuple vs => texts? vs
  | _ => Option.none

/-- The items without the blanks around them, and without those that are blank. -/
def cleaned (items : List Text) : List Text :=
  (items.map Text.strip).filter fun s => !s.isEmpty

/-- A list of texts, which may not be empty unless that is allowed
(`CommaListConstraint.coerce`). -/
def asList (allowEmpty : Bool) (v : Setting) : Except SettingFault (List Text) :=
  match items? v with
  | Option.none => .error (.notList v)
  | some items =>
    if allowEmpty || !(cleaned items).isEmpty then .ok (cleaned items) else .error .emptyList

end Setting

/-- What a key asks for (`TypeConstraint`). -/
inductive Constraint
  | text (allowEmpty : Bool)
  | flag
  | list (allowEmpty : Bool)
  /-- A text and nothing else. -/
  | plainText
  /-- A whole number, or what stands for one without loss. -/
  | plainInteger
  /-- A truth value, or what stands for one without loss. -/
  | plainFlag
deriving DecidableEq, Repr

namespace Constraint

/-! ## Whole numbers in texts -/

/-- Whether a character is blank around a number: the separators of ASCII are not. -/
def isMargin (c : Char) : Bool := Text.isBlank c && !('\x1c' ≤ c && c ≤ '\x1f')

/-- Digits behind the first zero, without the zeros and underscores that lead them.
The last one is kept if nothing but a point follows, or nothing at all. -/
def withoutZerosBehind? (last : Char) : Text → Option Text
  | [] => some [last]
  | c :: s =>
    if c = '0' || c = '_' then withoutZerosBehind? c s
    else if c = '.' then some (last :: c :: s)
    else if '1' ≤ c && c ≤ '9' then some (c :: s)
    else none

/-- Digits without the zeros that lead them. -/
def withoutZeros? : Text → Option Text
  | [] => none
  | c :: s =>
    if c = '0' then withoutZerosBehind? '0' s
    else if '1' ≤ c && c ≤ '9' then some (c :: s)
    else none

/-- Digits without a point and the zeros that follow it. -/
def withoutFraction (s : Text) : Text :=
  match s.dropWhile (· != '.') with
  | '.' :: zeros => if zeros.all (· == '0') then s.takeWhile (· != '.') else s
  | _ => s

/-- Digits without underscores, of which each stands between two of them. -/
def withoutUnderscores? : Text → Option Text
  | [] => some []
  | '_' :: c :: s => if c = '_' then none else (withoutUnderscores? s).map (c :: ·)
  | ['_'] => none
  | c :: s => (withoutUnderscores? s).map (c :: ·)

/-- The most digits that a whole number in a text can have. -/
def mostDigits : Nat := 4300

/-- The value of a text that is a whole number without its sign. -/
def magnitude? (s : Text) : Option Nat := do
  let plain := withoutFraction (← withoutZeros? s)
  if plain.head? = some '_' then none else
  let digits ← withoutUnderscores? plain
  if digits.isEmpty || mostDigits < digits.length then none else
  (digits.mapM Text.digit?).map (Text.natOfDigits 10)

/-- The whole number that a text is: digits with underscores between them, perhaps
with a point and zeros behind, and perhaps with a sign. -/
def integerOfText? (s : Text) : Option Int :=
  match Text.trimBy isMargin s with
  | '-' :: r => (magnitude? r).map fun n => -(n : Int)
  | '+' :: r => (magnitude? r).map fun n => (n : Int)
  | r => (magnitude? r).map fun n => (n : Int)

/-! ## Values -/

/-- The size that a float must stay below to stand for a whole number: the first
that takes more than 63 bits. -/
def floatBound : Nat := Nat.pow 2 63

/-- The whole number that a value stands for. -/
def integer? : Setting → Option Int
  | .int n => some n
  | .bool b => some (if b then 1 else 0)
  | .float (.finite negative m e) => do
    let n ←
      if 0 ≤ e then some (m * Binary64.powPos 2 e)
      else if m % Binary64.powPos 2 (-e) = 0 then some (m / Binary64.powPos 2 (-e)) else none
    if n < floatBound then some (if negative then -(n : Int) else n) else none
  | .text s => integerOfText? s
  | _ => none

def flagWords : List (Text × Bool) :=
  [("0", false), ("off", false), ("f", false), ("false", false), ("n", false), ("no", false),
   ("1", true), ("on", true), ("t", true), ("true", true), ("y", true), ("yes", true)].map
    fun w => (w.1.toList, w.2)

/-- The truth value that a value stands for. -/
def flag? : Setting → Option Bool
  | .bool b => some b
  | .text s => flagWords.lookup (Text.lower s)
  | v => match integer? v with
    | some 0 => some false
    | some 1 => some true
    | _ => none

/-- A value that suits the constraint, made from any value (`TypeConstraint.coerce`). -/
def coerce (c : Constraint) (v : Setting) : Except SettingFault Setting :=
  match c with
  | text allowEmpty => (v.asText allowEmpty).map .text
  | flag => v.asFlag.map .bool
  | list allowEmpty => (v.asList allowEmpty).map fun items => .list (items.map .text)
  | plainText => match v with
    | .text s => .ok (.text s)
    | _ => .error .wrongKind
  | plainInteger => match integer? v with
    | some n => .ok (.int n)
    | Option.none => .error .wrongKind
  | plainFlag => match flag? v with
    | some b => .ok (.bool b)
    | Option.none => .error .wrongKind

/-- What the constraint allows, in words. -/
def describe : Constraint → Text
  | text true | plainText => "any string".toList
  | text false => "non-empty string".toList
  | flag | plainFlag => "true, false".toList
  | list true => "comma-separated list".toList
  | list false => "comma-separated list (non-empty)".toList
  | plainInteger => "whole number".toList

end Constraint
end Letterhead
