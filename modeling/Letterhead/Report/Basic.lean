import Letterhead.Text.Basic
/-
# The report

What became of every file, in the order in which files were processed.
-/
namespace Letterhead

/-- What became of a file. -/
inductive Outcome
  | fixed
  | unchanged
  | failed
deriving DecidableEq, Repr

namespace Outcome

def all : List Outcome := [fixed, unchanged, failed]

def name : Outcome → Text
  | fixed => "fixed".toList
  | unchanged => "unchanged".toList
  | failed => "failed".toList

def ofName? (name : Text) : Option Outcome := all.find? fun o => o.name == name

/-- The outcome for a file with a new text. -/
def ofChange {α : Type} [DecidableEq α] (new old : α) : Outcome :=
  if new = old then unchanged else fixed

end Outcome

/-- The files of each outcome (`Reporter`). -/
structure Report where
  fixed : List Text
  unchanged : List Text
  failed : List Text
deriving DecidableEq, Repr

namespace Report

def empty : Report := ⟨[], [], []⟩

/-- The report with one more file (`Reporter.record`, `Reporter.record_failed`). -/
def record (r : Report) (o : Outcome) (id : Text) : Report :=
  match o with
  | .fixed => { r with fixed := r.fixed ++ [id] }
  | .unchanged => { r with unchanged := r.unchanged ++ [id] }
  | .failed => { r with failed := r.failed ++ [id] }

def files (r : Report) : Outcome → List Text
  | .fixed => r.fixed
  | .unchanged => r.unchanged
  | .failed => r.failed

def count (r : Report) (o : Outcome) : Nat := (r.files o).length

/-- Whether some file has, or had, an outdated header (`Reporter.needs_fixing`). -/
def needsFixing (r : Report) : Bool := !r.fixed.isEmpty

/-- The note on a file that is recorded. -/
def note (o : Outcome) (id : Text) : Text := id ++ ':' :: ' ' :: o.name

end Report
end Letterhead
