import Letterhead.Header.Stamp
import Letterhead.Log
/-
# The licence

The text that headers are made of. It is loaded when it is first asked for and
then stays as it was: later changes to the disk, the current folder or the year
are not seen. A load that fails leaves the licence as new.
-/
namespace Letterhead

/-- A licence text and the file it comes from (`CanonicalHeader`). -/
structure Licence.Loaded where
  text : Text
  source : Path
deriving DecidableEq, Repr

/-- A licence (`LicenseHeader`): the file that is asked for, the folder of licence texts
that come along, and what is known of it so far. -/
structure Licence where
  file : Path
  assets : Path
  loaded : Option Licence.Loaded
  renderings : List (FileType × Text)
deriving DecidableEq, Repr

namespace Licence

def ofFile (assets file : Path) : Licence := ⟨file, assets, none, []⟩

/-- An answer of the licence, what it knows by then, and what it said. -/
structure Answer (α : Type) where
  result : Except Halt α
  licence : Licence
  log : Log

/-- The paths that are tried (`LicenseHeader.candidate_paths`): as given, from the current
folder, and among the texts that come along. -/
def candidates (l : Licence) (d : Disk) : List Path :=
  if l.file.isAbsolute then [l.file]
  else [l.file, (Path.ofRoot d.cwd).join l.file, l.assets.join l.file]

/-- The first path of a list that leads to a file (`LicenseHeader._resolve`). -/
def firstFile? (d : Disk) : List Path → Except PathFault (Option Path)
  | [] => .ok none
  | p :: ps => match d.isFile p with
    | .ok true => .ok (some p)
    | .ok false => firstFile? d ps
    | .error e => .error e

/-- What stands for the year in a licence text (`CURRENT_YEAR_PLACEHOLDER`). -/
def yearMark : Text := "\x7bcurrentYear\x7d".toList

/-- Reads a licence file, and puts the year in. -/
def readFile (d : Disk) (year : Nat) (p : Path) : Except Halt Loaded :=
  let unreadable := Halt.failure (.licenceNotReadable p.text)
  if !d.mayRead p then .error unreadable
  else match d.read p with
    | .error _ => .error unreadable
    | .ok bytes => match Text.Utf8.decode bytes with
      | .error _ => .error unreadable
      | .ok s => .ok ⟨Text.replaceAll yearMark (Text.ofNat year) s, d.resolve p⟩

/-- Finds and reads the licence file (`LicenseHeader._load_file`), and tells which path it
was found by. -/
def loadFile (l : Licence) (d : Disk) (year : Nat) : Except Halt (Loaded × Path) :=
  match firstFile? d (l.candidates d) with
  | .error e => .error (.crash (.path e))
  | .ok none => .error (.failure (.licenceNotFound l.file.text))
  | .ok (some p) => (readFile d year p).map fun loaded => (loaded, p)

/-- The licence text (`LicenseHeader.load`), loaded if it is not yet. -/
def load (l : Licence) (d : Disk) (year : Nat) : Answer Loaded :=
  match l.loaded with
  | some loaded => ⟨.ok loaded, l, []⟩
  | none => match l.loadFile d year with
    | .ok (loaded, p) =>
      ⟨.ok loaded, { l with loaded := some loaded },
        [.debug ("Loaded license header from ".toList ++ p.text)]⟩
    | .error h => ⟨.error h, l, []⟩

/-- The header for a type. -/
def rendering (l : Licence) (d : Disk) (year : Nat) (t : FileType) : Answer Text :=
  match l.renderings.lookup t with
  | some header => ⟨.ok header, l, []⟩
  | none =>
    let a := l.load d year
    match a.result with
    | .ok loaded =>
      let header := render loaded.text t.profile
      ⟨.ok header, { a.licence with renderings := (t, header) :: a.licence.renderings }, a.log⟩
    | .error h => ⟨.error h, a.licence, a.log⟩

/-- The header for a type given by name (`LicenseHeader.render_for_type`). The licence is
loaded first, so that its failures come first. -/
def renderingNamed (l : Licence) (d : Disk) (year : Nat) (name : Text) : Answer Text :=
  match FileType.ofName? name with
  | some t => l.rendering d year t
  | none =>
    let a := l.load d year
    match a.result with
    | .ok _ => ⟨.error (.failure (.unsupportedType name)), a.licence, a.log⟩
    | .error h => ⟨.error h, a.licence, a.log⟩

/-- The stamp for a type given by name; an unknown name fails before anything is loaded. -/
def stamp (l : Licence) (read : Php.Reader) (marker : Text) (d : Disk) (year : Nat)
    (name : Text) : Answer Stamp :=
  match FileType.ofName? name with
  | none => ⟨.error (.failure (.unsupportedType name)), l, []⟩
  | some t =>
    let a := l.rendering d year t
    ⟨a.result.map fun header => ⟨t, .ofType read t, marker, header⟩, a.licence, a.log⟩

/-- The stamps for types given by name (`build_handlers`), up to the first that fails. -/
def stamps (l : Licence) (read : Php.Reader) (marker : Text) (d : Disk) (year : Nat) :
    List Text → Answer (List Stamp)
  | [] => ⟨.ok [], l, []⟩
  | name :: names =>
    let a := l.stamp read marker d year name
    match a.result with
    | .error h => ⟨.error h, a.licence, a.log⟩
    | .ok stamp =>
      let b := a.licence.stamps read marker d year names
      ⟨b.result.map (stamp :: ·), b.licence, a.log ++ b.log⟩

end Licence
end Letterhead
