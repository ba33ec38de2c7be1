import Letterhead.Path
import Letterhead.Text.Quoted
import Letterhead.Disk.Tree
/-
# The disk

A file tree seen from a current folder. Paths are followed name by name, and
through links, as long as folders may be entered and links are not too many.

What is taken for granted of a disk: the current folder is there, no two places share a
file, and nothing but the run changes a file while it lasts. Names are texts; `Machine` says
how others are seen. A file that could be opened is read to its end, and takes all that is
written to it. A walk goes as deep as there are folders, and finds no path too long; only
a question about one path (`Disk.ask`) minds how long its names are.
-/
namespace Letterhead

open Text.Utf8 (Bytes)

/-- Why a path cannot be used. -/
inductive PathReason
  | missing
  | denied
  | notFolder
  | isFolder
  | nameTooLong
  | tooManyLinks
deriving DecidableEq, Repr

namespace PathReason

def number : PathReason → Nat
  | missing => 2
  | denied => 13
  | notFolder => 20
  | isFolder => 21
  | nameTooLong => 36
  | tooManyLinks => 40

def wording : PathReason → Text
  | missing => "No such file or directory".toList
  | denied => "Permission denied".toList
  | notFolder => "Not a directory".toList
  | isFolder => "Is a directory".toList
  | nameTooLong => "File name too long".toList
  | tooManyLinks => "Too many levels of symbolic links".toList

/-- Whether it answers a question about the path by no, and does not leave it open. -/
def answersNo : PathReason → Bool
  | missing | notFolder | isFolder | tooManyLinks => true
  | denied | nameTooLong => false

end PathReason

/-- A path that cannot be used, and why. -/
structure PathFault where
  reason : PathReason
  path : Path
deriving DecidableEq, Repr

def PathFault.message (f : PathFault) : Text :=
  "[Errno ".toList ++ Text.ofNat f.reason.number ++ "] ".toList ++ f.reason.wording ++
    ": ".toList ++ Text.quoted f.path.text

/-- A file tree and the current folder, by its names from the root. -/
structure Disk where
  root : FileTree
  cwd : List Text

namespace Disk

/-! ## Following paths -/

/-- Where following names ends for the moment. -/
inductive Stop
  /-- At an entry that is no link, by its names from the root. -/
  | arrived (place : List Text)
  /-- At a link in a folder, with names left to follow from its target. -/
  | link (folder : List Text) (target : Text) (todo : List Text)

/-- The most bytes of one name. -/
def longestName : Nat := 255

/-- Why a folder has no entry of a name: it can have none whose name is too long. -/
def reasonOfMiss (name : Text) : PathReason :=
  if longestName < Text.Utf8.size name then .nameTooLong else .missing

/-- Follows names from a place up to the first link. -/
def follow (root : FileTree) : List Text → List Text → Except PathReason Stop
  | place, [] => .ok (.arrived place)
  | place, n :: todo =>
    match root.at? place with
    | some (.folder access entries) =>
      if n.isEmpty || n == ['.'] then follow root place todo
      else if !access.enter then .error .denied
      else if n == ['.', '.'] then follow root place.dropLast todo
      else match entries.lookup n with
        | none => .error (reasonOfMiss n)
        | some (.link target) => .ok (.link place target todo)
        | some _ => follow root (place ++ [n]) todo
    | _ => .error .notFolder

/-- Follows names from a place, and so many links. -/
def locateFrom (root : FileTree) (links : Nat) (place todo : List Text) :
    Except PathReason (List Text) :=
  match follow root place todo with
  | .error e => .error e
  | .ok (.arrived place) => .ok place
  | .ok (.link folder target todo) =>
    match links with
    | 0 => .error .tooManyLinks
    | n + 1 =>
      let start := if target.head? = some '/' then [] else folder
      locateFrom root n start ((Text.splitOn '/' target).dropWhile List.isEmpty ++ todo)

def maxLinks : Nat := 40

/-- The place that a path leads to, by its names from the root. -/
def locate (d : Disk) (p : Path) : Except PathReason (List Text) :=
  locateFrom d.root maxLinks (if p.isAbsolute then [] else d.cwd) p.names

/-- The entry that a path leads to, which is no link. -/
def entry (d : Disk) (p : Path) : Except PathReason FileTree :=
  match d.locate p with
  | .error e => .error e
  | .ok place => match d.root.at? place with
    | some t => .ok t
    | none => .error .missing

/-- The path without links and dots, of a path that leads somewhere. -/
def resolve (d : Disk) (p : Path) : Path :=
  match d.locate p with
  | .ok place => .ofRoot place
  | .error _ => (Path.ofRoot d.cwd).join p

/-! ## Asking -/

/-- The most bytes of a path as it is asked for. -/
def longestPath : Nat := 4095

/-- What holds of the entry that a path leads to. Nothing holds where it leads nowhere, or where
it holds a null character. A folder on the way that may not be entered leaves the question open,
and so does a name or a path that is too long. -/
def ask (d : Disk) (p : Path) (holds : FileTree → Bool) : Except PathFault Bool :=
  if p.text.contains '\x00' then .ok false
  else if longestPath < Text.Utf8.size p.text then .error ⟨.nameTooLong, p⟩
  else match d.entry p with
  | .ok t => .ok (holds t)
  | .error e => if e.answersNo then .ok false else .error ⟨e, p⟩

def isFileEntry : FileTree → Bool
  | .file _ _ => true
  | _ => false

def isFolderEntry : FileTree → Bool
  | .folder _ _ => true
  | _ => false

def leads (d : Disk) (p : Path) : Except PathFault Bool := d.ask p fun _ => true

def isFile (d : Disk) (p : Path) : Except PathFault Bool := d.ask p isFileEntry

def isFolder (d : Disk) (p : Path) : Except PathFault Bool := d.ask p isFolderEntry

/-- Whether a path leads to a file or folder that may be read. -/
def mayRead (d : Disk) (p : Path) : Bool :=
  match d.entry p with
  | .ok (.file access _) | .ok (.folder access _) => access.read
  | _ => false

/-! ## Reading and writing -/

/-- The bytes of the file that a path leads to. -/
def read (d : Disk) (p : Path) : Except PathFault Bytes :=
  match d.entry p with
  | .error e => .error ⟨e, p⟩
  | .ok (.file access bytes) => if access.read then .ok bytes else .error ⟨.denied, p⟩
  | .ok (.folder access _) => .error ⟨if access.read then .isFolder else .denied, p⟩
  | .ok (.link _) => .error ⟨.tooManyLinks, p⟩

/-- The disk with other bytes in the file that a path leads to. -/
def write (d : Disk) (p : Path) (bytes : Bytes) : Except PathFault Disk :=
  match d.locate p with
  | .error e => .error ⟨e, p⟩
  | .ok place => match d.root.at? place with
    | some (.file access _) =>
      if access.write then .ok { d with root := d.root.writeAt place bytes }
      else .error ⟨.denied, p⟩
    | some (.folder _ _) => .error ⟨.isFolder, p⟩
    | _ => .error ⟨.missing, p⟩

end Disk
end Letterhead
