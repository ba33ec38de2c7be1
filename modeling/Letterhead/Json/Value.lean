import Letterhead.Text.Point
import Letterhead.Decimal.Binary64
/-
# JSON values

An object keeps its fields in the order in which they were first named; a
field named again gets the later value at the earlier place.
-/
namespace Letterhead

/-- A text in which lone surrogates may stand. -/
abbrev Points := List Text.Point

/-- A JSON value. -/
inductive Json
  | null
  | bool (b : Bool)
  | int (n : Int)
  | float (x : Binary64)
  | text (s : Points)
  | list (items : List Json)
  | object (fields : List (Points × Json))
deriving Repr

namespace Json

/-- The fields with one of them set. -/
def put (key : Points) (v : Json) : List (Points × Json) → List (Points × Json)
  | [] => [(key, v)]
  | (k, w) :: fs => if k = key then (k, v) :: fs else (k, w) :: put key v fs

/-- The fields of a list of namings, in order. -/
def fieldsOf (namings : List (Points × Json)) : List (Points × Json) :=
  namings.foldl (fun fs f => put f.1 f.2 fs) []

/-- What kind of value it is, in a word. -/
def kindName : Json → Text
  | null => "NoneType".toList
  | bool _ => "bool".toList
  | int _ => "int".toList
  | float _ => "float".toList
  | text _ => "str".toList
  | list _ => "list".toList
  | object _ => "dict".toList

end Json
end Letterhead
