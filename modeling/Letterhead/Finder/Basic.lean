import Letterhead.Disk.Basic
import Letterhead.Finder.Glob
import Letterhead.Finder.Order
/-
# Finding files

The files of a folder and of all folders below it, by the end of their names.
Hidden files and folders are left out, and so is what is excluded: folders by
their names or by parts of their way, files by patterns.
-/
namespace Letterhead

/-- A file or folder below the target, by the names that lead to it. -/
abbrev RelPath := List Text

/-- The text that stands for a relative path (`FileFinder.relative_id`). -/
def RelPath.id (r : RelPath) : Text := if r.isEmpty then ['.'] else Text.joinWith ['/'] r

/-- Where to look, and what to leave out (`FileFinder`). -/
structure Finder where
  target : Path
  /-- Runs of names; a folder whose way holds one is not entered. -/
  excludes : List (List Text)
  /-- Patterns of file names. -/
  notNames : List Text
deriving DecidableEq, Repr

namespace Finder

/-- The run of names that is excluded by a text; blanks and slashes around it say nothing. -/
def excludeOf? (s : Text) : Option (List Text) :=
  let way := Text.trimBy (· == '/') (Text.strip s)
  if way.isEmpty then none else some (Path.ofText way).parts

def ofTexts (target : Path) (excludes notNames : List Text) : Finder :=
  ⟨target, excludes.filterMap excludeOf?,
    (notNames.map Text.strip).filter fun n => !n.isEmpty⟩

def isHidden (name : Text) : Bool := name.head? = some '.'

/-- Whether the run of names occurs in the other. -/
def occursIn (run names : List Text) : Bool :=
  run.isPrefixOf names || match names with
    | [] => false
    | _ :: ns => occursIn run ns

def isExcludedWay (f : Finder) (way : List Text) : Bool := f.excludes.any (occursIn · way)

/-- Whether a folder is not entered (`FileFinder._is_excluded_dir`). -/
def isExcludedFolder (f : Finder) (name : Text) (way : List Text) : Bool :=
  isHidden name || f.isExcludedWay way

/-- Whether a file name is excluded (`FileFinder._is_excluded_name`). -/
def isExcludedName (f : Finder) (name : Text) : Bool := f.notNames.any (Glob.accepts · name)

/-- What the names of files with an extension end with. -/
def suffixOf (extension : Text) : Text := '.' :: extension.dropWhile (· == '.')

/-! ## Walking -/

/-- What a walk comes upon. -/
inductive Sight
  | found (file : RelPath)
  | skippedFolder (folder : RelPath)
  | skippedFile (name : Text)
deriving DecidableEq, Repr

/-- What a walk for a suffix says of a file in a folder. -/
def seeFile (f : Finder) (suffix : Text) (way : RelPath) (name : Text) : List Sight :=
  if isHidden name || !suffix.isSuffixOf name then []
  else if f.isExcludedName name then [.skippedFile name]
  else [.found (way ++ [name])]

/-- What a walk says of a folder that it does not enter, if it says anything. -/
def seeSkipped (f : Finder) (way : RelPath) (name : Text) : List Sight :=
  if !isHidden name && f.isExcludedWay (way ++ [name]) then [.skippedFolder (way ++ [name])]
  else []

def byName {α : Type} (xs : List (Text × α)) : List (Text × α) :=
  Order.sort (fun x y => Text.le x.1 y.1) xs

/-- What is seen in a folder, in its own order: each folder with a walk through it. -/
structure Listing where
  files : List Text
  skipped : List Text
  folders : List (Text × List Sight)

/-- The sights of a listing: skipped folders, files, then each folder. -/
def Listing.sights (f : Finder) (suffix : Text) (way : RelPath) (l : Listing) : List Sight :=
  (Order.sort Text.le l.skipped).flatMap (f.seeSkipped way) ++
    (Order.sort Text.le l.files).flatMap (f.seeFile suffix way) ++
    (byName l.folders).flatMap (·.2)

mutual

/-- What a walk sees below an entry. `leadsToFolder` tells which links lead to a
folder: these are folders, and not entered. -/
def walk (f : Finder) (suffix : Text) (leadsToFolder : RelPath → Bool) (way : RelPath) :
    FileTree → List Sight
  | .folder access entries =>
    if access.read then
      (list f suffix leadsToFolder access.enter way entries).sights f suffix way
    else []
  | _ => []

/-- The listing of entries, where folders may be entered or not. -/
def list (f : Finder) (suffix : Text) (leadsToFolder : RelPath → Bool) (enter : Bool)
    (way : RelPath) : List (Text × FileTree) → Listing
  | [] => ⟨[], [], []⟩
  | (name, .file _ _) :: es =>
    let l := list f suffix leadsToFolder enter way es
    { l with files := name :: l.files }
  | (name, .link _) :: es =>
    let l := list f suffix leadsToFolder enter way es
    if leadsToFolder (way ++ [name]) then { l with skipped := name :: l.skipped }
    else { l with files := name :: l.files }
  | (name, .folder access entries) :: es =>
    let l := list f suffix leadsToFolder enter way es
    if f.isExcludedFolder name (way ++ [name]) then { l with skipped := name :: l.skipped }
    else if enter then
      { l with folders :=
          (name, walk f suffix leadsToFolder (way ++ [name]) (.folder access entries)) ::
            l.folders }
    else l

end

def pathOf (f : Finder) (names : RelPath) : Path := f.target.join ⟨.here, names⟩

/-- Whether a path leads to a folder, where that can be told. -/
def leadsToFolder (d : Disk) (p : Path) : Bool :=
  match d.isFolder p with
  | .ok b => b
  | .error _ => false

/-- What a walk through the target sees. -/
def sights (f : Finder) (d : Disk) (suffix : Text) : List Sight :=
  match d.locate f.target with
  | .error _ => []
  | .ok place => match d.root.at? place with
    | none => []
    | some t => f.walk suffix (fun way => leadsToFolder d (f.pathOf way)) [] t

def Sight.file? : Sight → Option RelPath
  | found file => some file
  | _ => none

/-- The files of a disk with an extension, in the order of their relative paths
(`FileFinder.find`). -/
def find (f : Finder) (d : Disk) (extension : Text) : List RelPath :=
  Order.sort (fun x y => Text.le (RelPath.id x) (RelPath.id y))
    ((f.sights d (suffixOf extension)).filterMap Sight.file?)

def Sight.note? : Sight → Option Text
  | found _ => none
  | skippedFolder way => some ("Skipping folder ".toList ++ RelPath.id way)
  | skippedFile name => some ("Skipping ".toList ++ name ++ ": excluded by name".toList)

/-- The notes of a search. -/
def notes (f : Finder) (d : Disk) (extension : Text) : List Text :=
  (f.sights d (suffixOf extension)).filterMap Sight.note?

end Finder
end Letterhead
