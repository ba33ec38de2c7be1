import Letterhead.Setting.Calendar
import Letterhead.Text.Quoted
import Letterhead.Decimal.Shortest
/-
# Setting values

What a source of configuration can hold under a key, before it is known to be
what the key asks for.
-/
namespace Letterhead

/-- A value of a configuration source. -/
inductive Setting
  | none
  | bool (b : Bool)
  | int (n : Int)
  | float (x : Binary64)
  | text (s : Text)
  | list (items : List Setting)
  | tuple (items : List Setting)
  | table (fields : List (Text × Setting))
  | date (d : Date)
  | time (t : Time)
  | dateTime (d : Date) (t : Time) (offset : Option UtcOffset)

/-- Keys with their values, in the order in which they were set. -/
abbrev Table := List (Text × Setting)

namespace Setting

def names : Binary64.Names := ⟨"inf".toList, "nan".toList⟩

/-- Parts with commas between, in parentheses behind a name. -/
def call (name : String) (parts : List Text) : Text :=
  name.toList ++ '(' :: (Text.joinWith ", ".toList parts ++ [')'])

mutual

/-- The integers in a value. -/
def integers : Setting → List Int
  | int n => [n]
  | list items | tuple items => integersOfAll items
  | table fields => integersOfFields fields
  | _ => []

def integersOfAll : List Setting → List Int
  | [] => []
  | x :: xs => integers x ++ integersOfAll xs

def integersOfFields : List (Text × Setting) → List Int
  | [] => []
  | (_, x) :: fs => integers x ++ integersOfFields fs

end

/-- The most digits of an integer that is written out in decimals. -/
def mostDigits : Nat := 4300

/-- The least size of an integer that is not written out. -/
def leastHidden : Nat := Nat.pow 10 mostDigits

/-- Whether messages can show a value: an integer of too many digits is not written out. -/
def isShowable (v : Setting) : Bool := v.integers.all fun n => n.natAbs < leastHidden

mutual

/-- A value as messages show it, where they can. -/
def shown : Setting → Text
  | none => "None".toList
  | bool true => "True".toList
  | bool false => "False".toList
  | int n => Text.ofInt n
  | float x => x.write names
  | text s => Text.quoted s
  | list items => '[' :: (Text.joinWith ", ".toList (shownAll items) ++ [']'])
  | tuple [x] => '(' :: (shown x ++ [',', ')'])
  | tuple items => '(' :: (Text.joinWith ", ".toList (shownAll items) ++ [')'])
  | table fields =>
    ['\x7b'] ++ Text.joinWith ", ".toList (shownFields fields) ++ ['\x7d']
  | date d => call "datetime.date" d.parts
  | time t => call "datetime.time" t.parts
  | dateTime d t offset =>
    let zone := match offset with
      | Option.none => []
      | Option.some o => ["tzinfo=".toList ++ UtcOffset.shown o]
    call "datetime.datetime" (d.parts ++ t.parts ++ zone)

def shownAll : List Setting → List Text
  | [] => []
  | x :: xs => shown x :: shownAll xs

def shownFields : List (Text × Setting) → List Text
  | [] => []
  | (k, x) :: fs => (Text.quoted k ++ ':' :: ' ' :: shown x) :: shownFields fs

end

end Setting

namespace Table

/-- The table with one key set; a key keeps its place. -/
def put (key : Text) (v : Setting) : Table → Table
  | [] => [(key, v)]
  | (k, w) :: fs => if k = key then (k, v) :: fs else (k, w) :: put key v fs

def get? (key : Text) (t : Table) : Option Setting := t.lookup key

end Table
end Letterhead
