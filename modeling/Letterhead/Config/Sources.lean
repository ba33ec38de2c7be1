import Letterhead.Setting.Constraint
/-
# Merging sources

Sources of configuration are asked in order: the first one that has a key
decides it, and what later ones say of it is not looked at.
-/
namespace Letterhead

/-- A key of a configuration: what it asks for, and what holds where no source
has it. -/
structure Field where
  name : Text
  constraint : Constraint
  default? : Option Setting

/-- What sources come to. -/
structure Merged where
  values : Table
  /-- The sources that decided a key, by their places. -/
  used : List Nat
  /-- Whether some key is in no source. -/
  defaults : Bool

namespace Merged

/-- The first source that has a key, by its place, and what it says. -/
def first? (key : Text) : List Table → Option (Nat × Setting)
  | [] => none
  | t :: ts => match t.get? key with
    | some v => some (0, v)
    | none => (first? key ts).map fun x => (x.1 + 1, x.2)

/-- The fields that a source decides, with what it says. -/
def decidedBy (fields : List Field) (sources : List Table) (place : Nat) :
    List (Field × Setting) :=
  fields.filterMap fun f => match first? f.name sources with
    | some (i, v) => if i = place then some (f, v) else none
    | none => none

def coerced (x : Field × Setting) : Except SettingFault (Text × Setting) :=
  (x.1.constraint.coerce x.2).map fun v => (x.1.name, v)

/-- The fields that no source has, with what holds then. -/
def undecided (fields : List Field) (sources : List Table) : List Field :=
  fields.filter fun f => (first? f.name sources).isNone

def defaulted (f : Field) : Except SettingFault (Text × Setting) :=
  match f.default? with
  | some v => .ok (f.name, v)
  | none => .error .wrongKind

/-- Merges sources (`ConfigLoader.build`). Of several values that are refused, the one in
the first source is reported. -/
def merge (fields : List Field) (sources : List Table) : Except SettingFault Merged := do
  let places := List.range sources.length
  let decided ← (places.flatMap (decidedBy fields sources)).mapM coerced
  let missing := undecided fields sources
  let defaults ← missing.mapM defaulted
  let used := places.filter fun i => !(decidedBy fields sources i).isEmpty
  return ⟨decided ++ defaults, used, !missing.isEmpty⟩

end Merged
end Letterhead
