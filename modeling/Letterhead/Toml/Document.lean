import Letterhead.Setting.Value
/-
# Tables under construction

A document is built statement by statement. Some names are closed on the way:
values in brackets take no more keys, and a table is opened once. Names are
full paths from the root.
-/
namespace Letterhead.Toml

/-- A dotted name. -/
abbrev Key := List Text

/-- Changes the table behind a key; tables on the way are made where they are
missing. Of a list of tables the last one is meant, where lists may be entered. -/
def change (enterLists : Bool) (f : Table → Option Table) : Key → Table → Option Table
  | [], t => f t
  | k :: ks, t =>
    match t.get? k with
    | none => (change enterLists f ks []).map fun u => t.put k (.table u)
    | some (.table u) => (change enterLists f ks u).map fun u => t.put k (.table u)
    | some (.list items) =>
      if enterLists then
        match items.getLast? with
        | some (.table u) =>
          (change enterLists f ks u).map fun u => t.put k (.list (items.dropLast ++ [.table u]))
        | _ => none
      else none
    | some _ => none

/-- Sets a key that is not set. -/
def add (key : Text) (v : Setting) (t : Table) : Option Table :=
  if (t.get? key).isSome then none else some (t.put key v)

/-- Puts an empty table at the end of a list of tables. -/
def appendTable (key : Text) (t : Table) : Option Table :=
  match t.get? key with
  | none => some (t.put key (.list [.table []]))
  | some (.list items) => some (t.put key (.list (items ++ [.table []])))
  | some _ => none

/-- Whether a value is written in brackets, and so complete. -/
def isBracketed : Setting → Bool
  | .list _ | .table _ => true
  | _ => false

/-- A document under construction. -/
structure Document where
  root : Table
  /-- Names that are complete, with everything below them. -/
  frozen : List Key
  /-- Tables that may not be opened again. -/
  opened : List Key
  /-- Tables that dotted names made since the last header. -/
  pending : List Key
  /-- The table that the last header opened. -/
  header : Key

namespace Document

def empty : Document := ⟨[], [], [], [], []⟩

/-- Whether a name or one above it is complete. -/
def isFrozen (d : Document) (key : Key) : Bool := d.frozen.any (·.isPrefixOf key)

/-- Closes the tables that dotted names made. -/
def settle (d : Document) : Document := { d with opened := d.opened ++ d.pending, pending := [] }

/-- Opens a table. -/
def openTable (d : Document) (key : Key) : Option Document :=
  if d.opened.contains key || d.isFrozen key then none
  else (change true some key d.root).map fun root =>
    { d with root := root, opened := key :: d.opened, header := key }

/-- Opens the next table of a list. What was closed below the one before is open again. -/
def openListItem (d : Document) (key : Key) : Option Document :=
  if d.isFrozen key then none
  else match key.getLast? with
    | none => none
    | some last =>
      (change true (appendTable last) key.dropLast d.root).map fun root =>
        { d with
          root := root
          frozen := d.frozen.filter fun k => !key.isPrefixOf k
          opened := key :: d.opened.filter fun k => !key.isPrefixOf k
          header := key }

/-- The tables that a dotted name goes through, behind a header. -/
def ways (header key : Key) : List Key :=
  (List.range key.length).tail.map fun i => header ++ key.take i

/-- Sets a key of the open table. -/
def set (d : Document) (key : Key) (v : Setting) : Option Document :=
  match key.getLast? with
  | none => none
  | some last =>
    let through := ways d.header key
    let parent := d.header ++ key.dropLast
    if through.any d.opened.contains || d.isFrozen parent then none
    else (change true (add last v) parent d.root).map fun root =>
      { d with
        root := root
        frozen := if isBracketed v then (d.header ++ key) :: d.frozen else d.frozen
        pending := d.pending ++ through }

end Document
end Letterhead.Toml
