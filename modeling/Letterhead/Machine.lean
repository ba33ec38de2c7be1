import Letterhead.Disk.Basic
import Letterhead.Setting.Value
/-
# What a run finds

The disk and whatever else is there before a run: the environment, the date, the
places that programs agree on, and the limits of the machine.

Names of files are texts here. Where a system has names that are no texts, each byte
that is out of place is seen as a character of its own, and `stray` says which these are.
The stack is known by the configurations that it has no room for; no manifest, syntax tree
or folder is too deep for it, and memory has no limit. The log folder takes its files, and
the output takes every line that has an encoding.
-/
namespace Letterhead

/-- Names and values of the environment, each name once. -/
abbrev Environment := List (Text × Text)

def Environment.get? (env : Environment) (name : Text) : Option Text := env.lookup name

/-- What a run finds around it: the disk, the environment, the date, the places that
are agreed on, and what is too much for the machine. -/
structure Machine where
  disk : Disk
  environment : Environment
  year : Nat
  /-- The moment, as log files are named. -/
  moment : Text
  /-- The folder of the licence texts that come along. -/
  assets : Path
  /-- The configuration file of the user. -/
  userConfig : Path
  logFolder : Path
  /-- The home folders that the system knows, by the names of users; whoever runs the
  program needs no name. -/
  homes : List (Text × Text) := []
  /-- The characters beyond ASCII that stand in names for bytes of no text. They have no
  encoding. -/
  stray : Char → Bool := fun _ => false
  /-- The documents that are nested too deep to be read. -/
  deepDocument : Text → Bool := fun _ => false
  /-- The tables that are nested too deep to be shown. -/
  deepTable : Table → Bool := fun _ => false

namespace Machine

/-- Whether the output takes a text (`ensure_utf8_output`): each of its characters has an
encoding. -/
def prints (m : Machine) (s : Text) : Bool := s.all fun c => decide (c.toNat < 128) || !m.stray c

/-- What is known as the home of a user. For whoever runs the program the environment comes
before the system. -/
def homeText? (m : Machine) (user : Text) : Option Text :=
  if user.isEmpty then (m.environment.get? "HOME".toList).or (m.homes.lookup user)
  else m.homes.lookup user

def home? (m : Machine) (user : Text) : Option Path :=
  match m.homeText? user with
  | none => none
  | some s =>
    let s := (s.reverse.dropWhile (· == '/')).reverse
    if s.isEmpty then some (.ofRoot [])
    else if s.head? = some '~' then none
    else some (.ofText s)

/-- The path with the home folder for a tilde in front and the name of a user behind it,
where that folder is known. -/
def expandHome (m : Machine) (p : Path) : Option Path :=
  match p.isAbsolute, p.names with
  | false, n :: ns =>
    if n.head? = some '~' then (m.home? n.tail).map fun h => h.join ⟨.here, ns⟩ else some p
  | _, _ => some p

end Machine
end Letterhead
