import Letterhead.Text.Utf8
/-
# File trees

Files, folders and links with their permissions. A tree is a value: writing
gives another tree, in which nothing but the written file differs.
-/
namespace Letterhead

open Text.Utf8 (Bytes)

/-- What the owner of an entry may do with it. -/
structure Access where
  read : Bool
  write : Bool
  enter : Bool
deriving DecidableEq, Repr

def Access.full : Access := ⟨true, true, true⟩

/-- An entry of a folder, with everything below it. -/
inductive FileTree
  | file (access : Access) (bytes : Bytes)
  | folder (access : Access) (entries : List (Text × FileTree))
  | link (target : Text)

namespace FileTree

def emptyFolder : FileTree := folder .full []

/-- What lies at names below an entry; links are not followed. -/
def at? : List Text → FileTree → Option FileTree
  | [], t => some t
  | n :: ns, folder _ entries => (entries.lookup n).bind (at? ns)
  | _ :: _, _ => none

/-- Changes what lies at names below an entry, where there is something. -/
def change (f : FileTree → FileTree) : List Text → FileTree → FileTree
  | [], t => f t
  | n :: ns, folder access entries =>
    folder access (entries.map fun e => if e.1 = n then (e.1, change f ns e.2) else e)
  | _ :: _, t => t

def withBytes (bytes : Bytes) : FileTree → FileTree
  | file access _ => file access bytes
  | t => t

/-- Gives the file at names other bytes. -/
def writeAt (names : List Text) (bytes : Bytes) (t : FileTree) : FileTree :=
  change (withBytes bytes) names t

/-! ## Making entries -/

def setEntry (name : Text) (t : FileTree) : List (Text × FileTree) → List (Text × FileTree)
  | [] => [(name, t)]
  | e :: es => if e.1 = name then (name, t) :: es else e :: setEntry name t es

/-- Puts an entry at names below a folder, and the folders on the way where they
are missing. -/
def put (new : FileTree) : List Text → FileTree → FileTree
  | [], _ => new
  | n :: ns, folder access entries =>
    folder access (setEntry n (put new ns ((entries.lookup n).getD emptyFolder)) entries)
  | n :: ns, _ => folder .full [(n, put new ns emptyFolder)]

/-- Removes the entry at names below a folder. -/
def remove : List Text → FileTree → FileTree
  | [n], folder access entries => folder access (entries.filter fun e => e.1 ≠ n)
  | n :: ns, folder access entries =>
    folder access (entries.map fun e => if e.1 = n then (e.1, remove ns e.2) else e)
  | _, t => t

/-- The same entry with other permissions; a link has none. -/
def withAccess (access : Access) : FileTree → FileTree
  | file _ bytes => file access bytes
  | folder _ entries => folder access entries
  | link target => link target

/-! ## Leaves -/

mutual

/-- The files and links that can be come upon, each with its names. -/
def leaves : FileTree → List (List Text × FileTree)
  | folder access entries => if access.read && access.enter then leavesOf entries else []
  | t => [([], t)]

def leavesOf : List (Text × FileTree) → List (List Text × FileTree)
  | [] => []
  | (n, t) :: es => (leaves t).map (fun x => (n :: x.1, x.2)) ++ leavesOf es

end

end FileTree
end Letterhead
